import TinyHermes.Lib.JsonText
import TinyHermes.Lib.Templates
import TinyHermes.Tools.HttpCalls

/-! What a description of an API turns into: the operations that it offers, or why it is not registered. -/
namespace TinyHermes.Tools
open Lib

/-- How a description is read besides its JSON: `float` of the text of a number, `str` of a value, and the hash of its content. -/
structure DescriptionReading where
  floatOf : List Char → Json
  shown : Json → String
  contentHash : Document → String

/-- `OpenApiRefused`, by what it is about. -/
inductive OpenApiFault where
  | size (octets : Nat)
  | notJson
  | notAnObject
  | noVersion
  | noInfo
  | noPaths
  | manyOperations (count : Nat)
  | noOperations
  | relativePath (path : List Char)
  | traversingPath (path : List Char)
  | notAVariable (path name : List Char)
  | pathItem (path : List Char)
  | sharedId (operationId : List Char)
  | noOperationId (method : String) (path : List Char)
  | parameterList (operationId : List Char)
  | manyParameters (operationId : List Char) (count : Nat)
  | parameterItem (operationId : List Char)
  | reference (operationId : List Char)
  | unnamedParameter (operationId : List Char)
  | location (operationId : List Char) (name : String)
  /-- Not an `OpenApiRefused`: a location that is a list or an object cannot be looked for. -/
  | unhashable
  | requestBody (operationId : List Char)
  | unfilled (operationId : List Char) (names : List (List Char))
  | unnamed (operationId : List Char) (names : List (List Char))
  deriving DecidableEq

/-- An `OperationParameter` with all that a model is told of it. -/
structure DescribedParameter extends OperationParameter where
  schema : Document
  description : Option String

/-- An `Operation` with all that a model is told of it. -/
structure DescribedOperation extends Operation where
  path : List Char
  summary : Option String
  parameters : List DescribedParameter
  bodySchema : Option Document

def DescribedOperation.toHttp (o : DescribedOperation) : HttpOperation where
  toOperation := o.toOperation
  path := o.path
  parameters := o.parameters.map (·.toOperationParameter)
  bodySchema := o.bodySchema

structure OpenApiDocument where
  title : String
  version : String
  operations : List DescribedOperation
  contentHash : String

section Limits

/-- `MAX_DOCUMENT_BYTES`. -/
def maxDocumentBytes : Nat := 1048576

/-- `MAX_OPERATIONS`. -/
def maxOperations : Nat := 128

/-- `MAX_PARAMETERS`. -/
def maxParameters : Nat := 32

/-- `SERVED_METHODS`, and each in capitals. -/
def servedMethods : List (String × String) :=
  [("get", "GET"), ("put", "PUT"), ("post", "POST"), ("delete", "DELETE"), ("patch", "PATCH"), ("head", "HEAD"),
    ("options", "OPTIONS")]

/-- `_OPERATION_ID`, whose `$` also stands before a line break at the end. -/
def isOperationId (name : List Char) : Bool :=
  isArgumentName name && decide ((if name.getLast? == some '\n' then name.dropLast else name).length ≤ 64)

end Limits

section Parameters

/-- `location not in SERVED_LOCATIONS`, which has to hash it. -/
def servedLocation (operationId : List Char) (name : String) : Option Json → Except OpenApiFault ParameterLocation
  | some (.string "path") => .ok .path
  | some (.string "query") => .ok .query
  | some (.array _) => .error .unhashable
  | some (.object _) => .error .unhashable
  | _ => .error (.location operationId name)

def textOf : Option Json → Option String
  | some (.string text) => some text
  | _ => none

def objectOf : Option Json → Option Document
  | some (.object fields) => some fields
  | _ => none

/-- One entry of `parameters`. -/
def parameter (operationId : List Char) (entry : Json) : Except OpenApiFault DescribedParameter :=
  match objectOf (some entry) with
  | none => .error (.parameterItem operationId)
  | some fields =>
    if (fields.lookup "$ref").isSome then .error (.reference operationId)
    else
      match textOf (fields.lookup "name") with
      | none => .error (.unnamedParameter operationId)
      | some name =>
        if Text.isBlank name then .error (.unnamedParameter operationId)
        else do
          let location ← servedLocation operationId name (fields.lookup "in")
          return { name := Text.stripChars name.toList
                   location
                   required := ((fields.lookup "required").map Json.truthy).getD (location == .path)
                   schema := (objectOf (fields.lookup "schema")).getD [("type", .string "string")]
                   description := textOf (fields.lookup "description") }

/-- `_parameters`. -/
def parametersOf (operationId : List Char) : Option Json → Except OpenApiFault (List DescribedParameter)
  | none => .ok []
  | some .null => .ok []
  | some (.array entries) =>
    if maxParameters < entries.length then .error (.manyParameters operationId entries.length)
    else entries.mapM (parameter operationId)
  | some _ => .error (.parameterList operationId)

/-- `_body_schema`. -/
def bodySchemaOf (operationId : List Char) : Option Json → Except OpenApiFault (Option Document)
  | none => .ok none
  | some .null => .ok none
  | some (.object body) => .ok do
    let content ← objectOf (body.lookup "content")
    let entry ← objectOf (content.lookup "application/json")
    objectOf (entry.lookup "schema")
  | some _ => .error (.requestBody operationId)

def supplied (parameters : List OperationParameter) : List (List Char) :=
  (parameters.filter (·.location == .path)).map (·.name)

/-- `_check_template`. -/
def checkTemplate (path operationId : List Char) (parameters : List OperationParameter) : Except OpenApiFault Unit :=
  let named := Templates.holes path
  let missing := named.filter fun name => !(supplied parameters).contains name
  let extra := (supplied parameters).filter fun name => !named.contains name
  if !missing.isEmpty then .error (.unfilled operationId missing)
  else if !extra.isEmpty then .error (.unnamed operationId extra)
  else .ok ()

end Parameters

section Operations

/-- `_checked_path`. -/
def checkedPath (path : List Char) : Except OpenApiFault (List Char) :=
  if path.head? != some '/' then .error (.relativePath path)
  else if decide (['/', '/'] <:+: path) || (path.splitOn '/').contains ['.', '.'] then .error (.traversingPath path)
  else
    match (Templates.holes path).find? fun name => !isArgumentName name with
    | some name => .error (.notAVariable path name)
    | none => .ok path

/-- `_operation`. -/
def operationOf (path : List Char) (method : String) (body : Document) : Except OpenApiFault DescribedOperation :=
  match textOf (body.lookup "operationId") with
  | none => .error (.noOperationId method path)
  | some operationId =>
    if !isOperationId operationId.toList then .error (.noOperationId method path)
    else do
      let parameters ← parametersOf operationId.toList (body.lookup "parameters")
      checkTemplate path operationId.toList (parameters.map (·.toOperationParameter))
      let bodySchema ← bodySchemaOf operationId.toList (body.lookup "requestBody")
      let summary := ((body.lookup "summary").getD .null).orElse ((body.lookup "description").getD .null)
      return { operationId := operationId.toList, method, path, summary := textOf (some summary), parameters, bodySchema }

def pathOperations (path : List Char) (item : Document) (found : List DescribedOperation) :
    Except OpenApiFault (List DescribedOperation) :=
  servedMethods.foldlM (fun found method =>
    match objectOf (item.lookup method.1) with
    | none => .ok found
    | some body => do
      let operation ← operationOf path method.2 body
      if found.any (·.operationId == operation.operationId) then .error (.sharedId operation.operationId)
      else return found ++ [operation]) found

/-- `_operations`. -/
def operationsOf (paths : Document) : Except OpenApiFault (List DescribedOperation) :=
  (paths.insertionSort fun f g => f.1 ≤ g.1).foldlM (fun found field => do
    let path ← checkedPath field.1.toList
    match objectOf (some field.2) with
    | none => .error (.pathItem path)
    | some item => pathOperations path item found) []

variable (r : DescriptionReading)

/-- `parse_document`. -/
def parseDocument (body : List Char) : Except OpenApiFault OpenApiDocument :=
  if maxDocumentBytes < (Utf8.encode body).length then .error (.size (Utf8.encode body).length)
  else
    match JsonText.loads r.floatOf body with
    | none => .error .notJson
    | some loaded =>
      match objectOf (some loaded) with
      | none => .error .notAnObject
      | some document =>
        if (textOf (document.lookup "openapi")).isNone then .error .noVersion
        else
          match objectOf (document.lookup "info") with
          | none => .error .noInfo
          | some info =>
            match objectOf (document.lookup "paths") with
            | none => .error .noPaths
            | some paths => do
              let operations ← operationsOf paths
              if maxOperations < operations.length then .error (.manyOperations operations.length)
              else if operations.isEmpty then .error .noOperations
              else
                return { title := r.shown ((info.lookup "title").getD (.string ""))
                         version := r.shown ((info.lookup "version").getD (.string ""))
                         operations := operations.insertionSort fun o o' => o.operationId ≤ o'.operationId
                         contentHash := r.contentHash document }

end Operations

structure Checked (o : DescribedOperation) : Prop where
  path : checkedPath o.path = .ok o.path
  template : checkTemplate o.path o.operationId o.toHttp.parameters = .ok ()

section Checks

theorem checkedPath_same {path path' : List Char} (h : checkedPath path = .ok path') : path' = path := by
  rw [checkedPath] at h
  split_ifs at h
  split at h
  · cases h
  · exact (Except.ok.inj h).symm

theorem operationOf_checked {path : List Char} {method : String} {body : Document} {o : DescribedOperation}
    (hpath : checkedPath path = .ok path) (h : operationOf path method body = .ok o) : Checked o := by
  rw [operationOf] at h
  split at h
  · cases h
  · split_ifs at h
    obtain ⟨_, _, h⟩ := Fallible.bind_ok.mp h
    obtain ⟨_, htemplate, h⟩ := Fallible.bind_ok.mp h
    obtain ⟨_, _, h⟩ := Fallible.bind_ok.mp h
    cases h
    exact ⟨hpath, htemplate⟩

theorem pathOperations_checked {path : List Char} {item : Document} {found found' : List DescribedOperation}
    (hpath : checkedPath path = .ok path) (hfound : ∀ o ∈ found, Checked o) (h : pathOperations path item found = .ok found') :
    ∀ o ∈ found', Checked o := by
  refine Fallible.foldlM_keeps (P := fun found => ∀ o ∈ found, Checked o) (fun method _ found found' hfound h => ?_) hfound h
  split at h
  · exact Except.ok.inj h ▸ hfound
  · obtain ⟨_, hoperation, h⟩ := Fallible.bind_ok.mp h
    split_ifs at h
    cases h
    intro o ho
    rcases List.mem_append.mp ho with ho | ho
    · exact hfound o ho
    · exact List.mem_singleton.mp ho ▸ operationOf_checked hpath hoperation

theorem operationsOf_checked {paths : Document} {found : List DescribedOperation} (h : operationsOf paths = .ok found) :
    ∀ o ∈ found, Checked o := by
  refine Fallible.foldlM_keeps (P := fun found => ∀ o ∈ found, Checked o) (fun field _ found found' hfound h => ?_)
    (List.forall_mem_nil _) h
  obtain ⟨_, hpath, h⟩ := Fallible.bind_ok.mp h
  split at h
  · cases h
  · obtain rfl := checkedPath_same hpath
    exact pathOperations_checked hpath hfound h

theorem parseDocument_checked {r : DescriptionReading} {body : List Char} {d : OpenApiDocument} (h : parseDocument r body = .ok d) :
    ∀ o ∈ d.operations, Checked o := by
  rw [parseDocument] at h
  split_ifs at h
  split at h
  · cases h
  split at h
  · cases h
  split_ifs at h
  split at h
  · cases h
  split at h
  · cases h
  obtain ⟨operations, hoperations, h⟩ := Fallible.bind_ok.mp h
  split_ifs at h
  cases h
  intro o ho
  exact operationsOf_checked hoperations o ((List.perm_insertionSort _ operations).mem_iff.mp ho)

variable {o : DescribedOperation}

theorem Checked.rooted (h : Checked o) : ∃ rest, o.path = '/' :: rest := by
  have hpath := h.path
  rw [checkedPath] at hpath
  split_ifs at hpath with hhead
  have hslash : o.path.head? = some '/' := by simpa using hhead
  exact ⟨o.path.tail, (List.eq_cons_of_mem_head? hslash)⟩

theorem Checked.untraversing (h : Checked o) : ['.', '.'] ∉ o.path.splitOn '/' := by
  have hpath := h.path
  rw [checkedPath] at hpath
  split_ifs at hpath with hhead hsegments
  rw [Bool.or_eq_true, not_or] at hsegments
  exact fun hmem => hsegments.2 (List.contains_iff_mem.mpr hmem)

theorem Checked.variable (h : Checked o) {name : List Char} (hname : name ∈ Templates.holes o.path) : isArgumentName name = true := by
  have hpath := h.path
  rw [checkedPath] at hpath
  split_ifs at hpath with hhead hsegments
  split at hpath
  · cases hpath
  · rename_i hnone
    simpa using List.find?_eq_none.mp hnone name hname

theorem Checked.supplied_iff (h : Checked o) (name : List Char) :
    name ∈ supplied o.toHttp.parameters ↔ name ∈ Templates.holes o.path := by
  have htemplate := h.template
  rw [checkTemplate] at htemplate
  split_ifs at htemplate with hmissing hextra
  simp only [Bool.not_eq_true', Bool.not_eq_false, List.isEmpty_iff, List.filter_eq_nil_iff, List.contains_iff_mem] at hmissing hextra
  exact ⟨hextra name, hmissing name⟩

end Checks

end TinyHermes.Tools
