import TinyHermes.Outbound.Scope

/-! Reading a proxy request head, and the head that is sent on. -/
namespace TinyHermes.Egress
open Lib Outbound

/-- What heads are read with besides: the identifiers, and what `urlsplit` refuses of an authority. -/
structure HeadReading extends Reading where
  uuid : List Char → Option Nat
  /-- Brackets around what is no address, or characters that normalize into separators. -/
  refusesNetloc : List Char → Bool

inductive HeadFault where
  | empty | notARequestLine | notAHeader | notAbsolute | userinfo | notAnAuthority | noHost | noPort | notAPort
  /-- `urlsplit` raised, which is no `ProxyRequestInvalid`. -/
  | urlError
  deriving DecidableEq, Repr

/-- `text.partition(sep)`: what stands before and after the first separator, if there is one. -/
def partition (sep : Char) (text : List Char) : List Char × Bool × List Char :=
  match text.dropWhile (· != sep) with
  | [] => (text, false, [])
  | _ :: rest => (text.takeWhile (· != sep), true, rest)

/-- `text.split("\r\n")`. -/
def splitLines : List Char → List (List Char)
  | [] => [[]]
  | '\r' :: '\n' :: rest => [] :: splitLines rest
  | c :: rest => (splitLines rest).modifyHead (c :: ·)

/-- `head.decode("latin-1")`. -/
def decodeLatin (head : List UInt8) : List Char := head.map fun b => Char.ofNat b.toNat

/-- `text.encode("latin-1")`, which raises on what is not Latin-1. -/
def encodeLatin (text : List Char) : Option (List UInt8) :=
  if text.all (·.toNat < 256) then some (text.map fun c => UInt8.ofNat c.toNat) else none

/-- `str.upper` of a character of Latin-1. -/
def upperLatin (c : Char) : List Char :=
  let n := c.toNat
  if (0x61 ≤ n && n ≤ 0x7A) || (0xE0 ≤ n && n ≤ 0xFE && n != 0xF7) then [Char.ofNat (n - 0x20)]
  else if n == 0xDF then ['S', 'S']
  else if n == 0xB5 then [Char.ofNat 0x39C]
  else if n == 0xFF then [Char.ofNat 0x178]
  else [c]

def upper (text : List Char) : List Char := text.flatMap upperLatin

section Numbers

def digits : List Char → Bool → Nat → Option Nat
  | [], digitBefore, value => if digitBefore then some value else none
  | c :: rest, digitBefore, value =>
    if c.isDigit then digits rest true (value * 10 + (c.toNat - '0'.toNat))
    else if c == '_' && digitBefore then digits rest false value
    else none

/-- `int(raw)`. -/
def int (raw : List Char) : Option Int :=
  match Text.stripChars raw with
  | '+' :: rest => (digits rest false 0).map Int.ofNat
  | '-' :: rest => (digits rest false 0).map fun n => -(n : Int)
  | text => (digits text false 0).map Int.ofNat

/-- `_port`. -/
def port (raw : List Char) : Except HeadFault Nat :=
  match int raw with
  | none => .error .notAPort
  | some n => if 1 ≤ n ∧ n ≤ 65535 then .ok n.toNat else .error .notAPort

end Numbers

structure SplitResult where
  scheme : List Char := []
  netloc : List Char := []
  path : List Char := []
  query : List Char := []

def isSchemeChar (c : Char) : Bool := c.isAlphanum || c == '+' || c == '-' || c == '.'

/-- The scheme in front of the first colon, if what stands there is one. -/
def splitScheme (url : List Char) : List Char × List Char :=
  match partition ':' url with
  | (before, true, rest) =>
    if before.head?.any (·.isAlpha) && before.all isSchemeChar then (before.map lowerLatin, rest) else ([], url)
  | _ => ([], url)

/-- `urlsplit(url)`. -/
def urlsplit (w : HeadReading) (url : List Char) : Except HeadFault SplitResult :=
  let url := (url.dropWhile (·.toNat ≤ 0x20)).filter fun c => c != '\t' && c != '\r' && c != '\n'
  let (scheme, url) := splitScheme url
  let isNetloc := "//".toList.isPrefixOf url
  let netloc := if isNetloc then (url.drop 2).takeWhile fun c => c != '/' && c != '?' && c != '#' else []
  let url := if isNetloc then url.drop (2 + netloc.length) else url
  if (netloc.contains '[') != (netloc.contains ']') || w.refusesNetloc netloc then .error .urlError
  else
    let (beforeFragment, _, _) := partition '#' url
    let (path, _, query) := partition '?' beforeFragment
    .ok { scheme := scheme, netloc := netloc, path := path, query := query }

def defaultPort (scheme : List Char) : Nat :=
  if scheme = "http".toList then 80 else if scheme = "https".toList then 443 else 0

section Reading
variable (w : HeadReading)

/-- The end of `_authority`: one spelling of the host, and a port at all. -/
def namedTarget (host : List Char) (port : Nat) : Except HeadFault (List Char × Nat) :=
  let host := rstripDots (w.lower (Text.stripChars host))
  if host.isEmpty then .error .noHost
  else if port = 0 then .error .noPort
  else .ok (host, port)

/-- `_authority`. -/
def authority (text : List Char) (defaultPort : Nat) : Except HeadFault (List Char × Nat) :=
  if text.contains '@' then .error .userinfo
  else if text.head? = some '[' then
    match partition ']' text with
    | (opened, true, ':' :: raw) => do namedTarget w opened.tail (← port raw)
    | (opened, true, _) => namedTarget w opened.tail defaultPort
    | _ => .error .notAnAuthority
  else
    match partition ':' text with
    | (host, true, raw) => do namedTarget w host (← port raw)
    | _ => namedTarget w text defaultPort

/-- `_headers`. -/
def headers : List (List Char) → Except HeadFault (List (List Char × List Char))
  | [] => .ok []
  | line :: rest =>
    if line.isEmpty then .ok []
    else
      match partition ':' line with
      | (key, true, value) => do return (Text.stripChars key, Text.stripChars value) :: (← headers rest)
      | _ => .error .notAHeader

structure ProxyRequest where
  method : List Char
  scheme : List Char
  host : List Char
  port : Nat
  path : List Char
  version : List Char
  headers : List (List Char × List Char)
  deriving DecidableEq

def ProxyRequest.tunnel (r : ProxyRequest) : Bool := r.method == "CONNECT".toList

def parseHead (head : List UInt8) : Except HeadFault ProxyRequest := do
  let lines := splitLines (decodeLatin head)
  let line := lines.headD []
  if line.isEmpty then throw .empty
  let (method, _, rest) := partition ' ' line
  let (target, _, version) := partition ' ' rest
  if method.isEmpty || target.isEmpty || !("HTTP/".toList.isPrefixOf version) then throw .notARequestLine
  let headers ← headers lines.tail
  if upper method = "CONNECT".toList then
    let (host, port) ← authority w target (defaultPort "https".toList)
    return { method := "CONNECT".toList, scheme := "https".toList, host, port, path := [], version, headers }
  else
    let split ← urlsplit w target
    if split.scheme.isEmpty || split.netloc.isEmpty then throw .notAbsolute
    let (host, port) ← authority w split.netloc (defaultPort split.scheme)
    let path := if split.path.isEmpty then ['/'] else split.path
    return {
      method := upper method, scheme := w.lower split.scheme, host, port
      path := if split.query.isEmpty then path else path ++ '?' :: split.query, version, headers }

/-- `request.header(name)`: the first one of that name. -/
def ProxyRequest.header (r : ProxyRequest) (name : String) : Option (List Char) :=
  (r.headers.find? fun h => w.lower h.1 == w.lower name.toList).map (·.2)

/-- `_HOP_BY_HOP`. -/
def hopByHop : List String :=
  ["proxy-authorization", "proxy-connection", "keep-alive", "te", "trailer", "transfer-encoding", "upgrade"]

/-- A header that `forwarded_head` leaves out. -/
def stripped (key : List Char) : Bool :=
  (hopByHop.any fun name => w.lower key == name.toList) || w.lower key == "connection".toList

def ProxyRequest.carried (r : ProxyRequest) : List (List Char × List Char) := r.headers.filter fun h => !stripped w h.1

def ProxyRequest.forwardedLines (r : ProxyRequest) : List (List Char) :=
  (r.method ++ ' ' :: r.path ++ ' ' :: r.version) :: (r.carried w).map (fun h => h.1 ++ ": ".toList ++ h.2) ++
    ["Connection: close".toList]

/-- `forwarded_head`. -/
def ProxyRequest.forwardedHead (r : ProxyRequest) : Option (List UInt8) :=
  encodeLatin ("\r\n".toList.intercalate (r.forwardedLines w) ++ "\r\n\r\n".toList)

end Reading

end TinyHermes.Egress
