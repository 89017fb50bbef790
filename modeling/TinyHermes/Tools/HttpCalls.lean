import TinyHermes.Egress.Request
import TinyHermes.Lib.Documents
import TinyHermes.Tools.CallNames

/-! A call of a bound operation, as the request it is composed into. -/
namespace TinyHermes.Tools
open Lib Agents Outbound
open Egress (HeadReading HeadFault urlsplit)
open Runs (Uuid)

inductive ParameterLocation where
  | path | query
  deriving DecidableEq, Repr

structure OperationParameter where
  name : List Char
  location : ParameterLocation
  required : Bool

/-- An `Operation` with what its requests are composed from. -/
structure HttpOperation extends Operation where
  path : List Char
  parameters : List OperationParameter
  bodySchema : Option Document

structure BoundOperation where
  toolName : List Char
  versionId : Uuid
  baseUrl : List Char
  credentialRef : Option String
  operation : HttpOperation

/-- What of it its name and the scope of a delegation are judged by. -/
def BoundOperation.entry (b : BoundOperation) : BoundEntry Operation where
  toolName := b.toolName
  versionId := b.versionId
  credentialRef := b.credentialRef
  item := b.operation.toOperation

def BoundOperation.callName (b : BoundOperation) : List Char := b.entry.callName httpKind

structure ToolCallBlock where
  callId : String
  name : List Char
  arguments : Document

structure HttpRequestPlan where
  method : String
  url : List Char
  body : Option String
  headers : List (String × String)
  readOnly : Bool
  deriving DecidableEq

inductive HttpCallFault where
  /-- `HttpCallRefused`. -/
  | refused (reason detail : String)
  /-- `urlsplit` raised on the registered base. -/
  | raised (fault : HeadFault)

/-- How values are written: `str` of a float, `json.dumps`, and the hash over a sorted document, where there is one. -/
structure Spelling extends HeadReading where
  floatText : ℚ → String
  dumps : Json → String
  digest : Document → Option String

section Encoding

/-- The bytes that `quote` leaves as they are. -/
def isUnreserved (b : UInt8) : Bool :=
  (0x30 ≤ b && b ≤ 0x39) || (0x41 ≤ b && b ≤ 0x5A) || (0x61 ≤ b && b ≤ 0x7A) || b == 0x2D || b == 0x2E || b == 0x5F ||
    b == 0x7E

def hexDigit (n : Nat) : Char := if n < 10 then Char.ofNat (0x30 + n) else Char.ofNat (0x37 + n)

def quoteByte (b : UInt8) : List Char :=
  if isUnreserved b then [Char.ofNat b.toNat] else ['%', hexDigit (b.toNat / 16), hexDigit (b.toNat % 16)]

/-- `quote(text, safe="")`. -/
def quote (text : List Char) : List Char := (text.flatMap String.utf8EncodeChar).flatMap quoteByte

/-- `quote_plus(text)`. -/
def quotePlus (text : List Char) : List Char :=
  (text.flatMap String.utf8EncodeChar).flatMap fun b => if b == 0x20 then ['+'] else quoteByte b

/-- `urlencode(query)`. -/
def urlencode (query : List (List Char × List Char)) : List Char :=
  ['&'].intercalate (query.map fun (name, value) => quotePlus name ++ '=' :: quotePlus value)

/-- `text.replace(old, new)`; `skip` characters of an occurrence are still to be passed. -/
def replaceFrom (old new : List Char) : Nat → List Char → List Char
  | _, [] => []
  | skip + 1, _ :: rest => replaceFrom old new skip rest
  | 0, c :: rest =>
    if old.isPrefixOf (c :: rest) then new ++ replaceFrom old new (old.length - 1) rest
    else c :: replaceFrom old new 0 rest

/-- `_ARGUMENT_NAME`, whose `$` also stands before a line break at the end. -/
def isArgumentName (name : List Char) : Bool :=
  let name := if name.getLast? == some '\n' then name.dropLast else name
  match name with
  | [] => false
  | c :: rest => (c.isAlpha || c == '_') && rest.all fun d => d.isAlphanum || d == '_' || d == '.' || d == '-'

end Encoding

section Composing
variable (p : Spelling)

/-- `_rendered`. -/
def rendered (name : String) : Json → Except HttpCallFault (List Char)
  | .bool value => .ok (if value then "true".toList else "false".toList)
  | .string value => .ok value.toList
  | .int value => .ok (toString value).toList
  | .float value => .ok (p.floatText value).toList
  | _ => .error (.refused "invalid_arguments" name)

/-- `_joined`. -/
def joined (baseUrl path : List Char) : Except HttpCallFault (List Char) :=
  match urlsplit p.toHeadReading baseUrl with
  | .error fault => .error (.raised fault)
  | .ok parts => .ok (parts.scheme ++ "://".toList ++ parts.netloc ++ parts.path.rdropWhile (· == '/') ++ path)

/-- `declared`: of two parameters of one name, the later one. -/
def declared (o : HttpOperation) (name : List Char) : Option OperationParameter :=
  o.parameters.reverse.find? (·.name == name)

/-- `sorted(names)`, behind commas. -/
def sortedNames (names : List String) : String := ",".intercalate (names.insertionSort (· ≤ ·))

/-- One argument put where its parameter stands: into the path, or behind it. -/
def place (o : HttpOperation) (sofar : List Char × List (List Char × List Char)) (argument : String × Json) :
    Except HttpCallFault (List Char × List (List Char × List Char)) := do
  let value ← rendered p argument.1 argument.2
  let name := argument.1.toList
  match (declared o name).map (·.location) with
  | some ParameterLocation.path => return (replaceFrom ('{' :: (name ++ ['}'])) (quote value) 0 sofar.1, sofar.2)
  | _ => return (sofar.1, sofar.2 ++ [(name, value)])

/-- The arguments that `http_call_of` finds wrong by their names. -/
def misnamed (o : HttpOperation) (arguments : Document) : Option String :=
  let unknown := (arguments.map (·.1)).filter fun name => (declared o name.toList).isNone
  let missing := ((o.parameters.map fun q => String.ofList q.name).dedup).filter fun name =>
    (declared o name.toList).any (·.required) && (arguments.lookup name).isNone
  if !unknown.isEmpty then some (sortedNames unknown)
  else if !missing.isEmpty then some (sortedNames missing)
  else (arguments.map (·.1)).find? fun name => !isArgumentName name.toList

/-- `arguments.pop("body", None)`: the body, if it is not `None`. -/
def bodyOf (arguments : Document) : Option Json :=
  match arguments.lookup "body" with
  | none | some .null => none
  | some value => some value

/-- The end of `http_call_of`: the request itself. -/
def composed (b : BoundOperation) (body : Option Json) (path : List Char) (query : List (List Char × List Char)) :
    Except HttpCallFault HttpRequestPlan :=
  if body.isSome != b.operation.bodySchema.isSome then .error (.refused "invalid_arguments" "body")
  else do
    let url ← joined p b.baseUrl path
    return { method := b.operation.method
             url := if query.isEmpty then url else url ++ '?' :: urlencode query
             body := body.map p.dumps
             headers := if body.isSome then [("Content-Type", "application/json")] else []
             readOnly := b.operation.readOnly }

/-- `http_call_of`, the binding found. -/
def requestPlan (b : BoundOperation) (call : ToolCallBlock) : Except HttpCallFault HttpRequestPlan :=
  let arguments := call.arguments.filter (·.1 != "body")
  match misnamed b.operation arguments with
  | some names => .error (.refused "invalid_arguments" names)
  | none => do
    let (path, query) ← arguments.foldlM (place p b.operation) (b.operation.path, [])
    composed p b (bodyOf call.arguments) path query

/-- `http_call_of`. -/
def httpCallOf (call : ToolCallBlock) (bound : List BoundOperation) : Except HttpCallFault HttpRequestPlan :=
  match bound.find? (·.callName == call.name) with
  | none => .error (.refused "tool_not_authorized" (String.ofList call.name))
  | some b => requestPlan p b call

end Composing

section Plans
variable {p : Spelling} {b : BoundOperation} {call : ToolCallBlock} {plan : HttpRequestPlan}

theorem httpCallOf_found {bound : List BoundOperation} (h : bound.find? (·.callName == call.name) = some b) :
    httpCallOf p call bound = requestPlan p b call := by
  rw [httpCallOf, h]

end Plans

end TinyHermes.Tools
