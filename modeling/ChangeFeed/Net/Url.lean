import ChangeFeed.Net.Host

/-!
# Web addresses

An address with a scheme, as programs that follow the URL standard read it. Reading brings it to a
normal form: surrounding blanks and all line breaks go, a well-known scheme takes backslashes for
slashes and any number of them before the host, steps to the parent directory are taken, and
characters that may not stand for themselves are percent-encoded. Name and password before the host
are not kept.

* `Url.parse?` reads an address and `Url.text` writes it.
* `Url.withPairs` adds names and values to the query.
* `Url.target` is what a request asks the host for.
-/

namespace ChangeFeed.Net

/-- A web address in normal form. -/
structure Url where
  /-- The scheme in small letters. -/
  scheme : String
  /-- The host, which may be the empty name; there is none in an address such as `mailto:x`. -/
  host : Option Host
  /-- The port, unless it is the one that the scheme stands for. -/
  port : Option Nat
  path : String
  query : Option String
  fragment : Option String
  deriving DecidableEq, Inhabited

namespace Url

/-! ## Schemes -/

/-- The ports of the schemes that need a host. -/
def knownPorts : List (String × Nat) :=
  [("http", 80), ("https", 443), ("ws", 80), ("wss", 443), ("ftp", 21)]

/-- A kind of scheme. -/
inductive Kind where
  /-- A scheme that needs a host and has a port of its own. -/
  | known
  | file
  | other
  deriving DecidableEq

def kind (scheme : String) : Kind :=
  if (knownPorts.lookup scheme).isSome then .known else if scheme = "file" then .file else .other

/-- Whether a character may stand in a scheme. -/
def isSchemeCharacter (c : Char) : Bool := c.isAlphanum || c = '+' || c = '-' || c = '.'

def scheme? (cs : List Char) : Option (String × List Char) :=
  let name := cs.takeWhile isSchemeCharacter
  match cs.drop name.length with
  | ':' :: rest =>
    if (name.head?.map Char.isAlpha).getD false then
      some (String.ofList (name.map Char.toLower), rest)
    else none
  | _ => none

/-! ## Hosts and ports -/

def isSlash (kind : Kind) (c : Char) : Bool := c = '/' || (kind ≠ .other && c = '\\')

/-- Whether a character ends the part with the host. -/
def endsAuthority (kind : Kind) (c : Char) : Bool := isSlash kind c || c = '?' || c = '#'

/-- The part behind the last `@`. -/
def withoutCredentials (cs : List Char) : List Char :=
  (cs.reverse.takeWhile (· ≠ '@')).reverse

/-- Splits a host from what follows its first colon outside of brackets. -/
def splitPort (inside : Bool) : List Char → List Char × List Char
  | [] => ([], [])
  | c :: cs =>
    if c = ':' ∧ !inside then ([], c :: cs)
    else
      let (host, rest) := splitPort (if c = '[' then true else if c = ']' then false else inside) cs
      (c :: host, rest)

/-- Reads a port with its colon. The inner answer is none for the port of the scheme. -/
def port? (scheme : String) : List Char → Option (Option Nat)
  | [] => some none
  | _ :: [] => some none
  | _ :: ds =>
    match Decimal.natural? ds with
    | some n =>
      if 65535 < n then none
      else some (if knownPorts.lookup scheme = some n then none else some n)
    | none => none

/-- Reads the host and the port. -/
def authority? (scheme : String) (cs : List Char) : Option (Host × Option Nat) :=
  let (hostText, portText) := splitPort false (withoutCredentials cs)
  if hostText.isEmpty then
    if kind scheme = .known ∨ cs ≠ [] then none else some (.name "", none)
  else do
    let host ← if kind scheme = .other then Host.unchanged? hostText else Host.read? hostText
    let port ← port? scheme portText
    pure (host, port)

/-! ## Paths -/

/-- A directory step in its written forms. -/
def dot : List (List Char) := [".".toList, "%2e".toList]

/-- Whether a segment is the step to the directory itself. -/
def isHere (segment : List Char) : Bool := dot.contains (segment.map Char.toLower)

/-- Whether a segment is the step to the parent directory. -/
def isUp (segment : List Char) : Bool :=
  (dot.flatMap fun a => dot.map fun b => a ++ b).contains (segment.map Char.toLower)

/-- Whether a segment is a drive letter, which no step to the parent takes away. -/
def isDrive : List Char → Bool
  | a :: b :: rest => a.isAlpha && (b = ':' || b = '|') && (rest.isEmpty || rest.head? = some '\\')
  | _ => false

/-- The directories after a step to the parent. -/
def up (done : List (List Char)) : List (List Char) :=
  if (done.getLast?.map isDrive).getD false then done else done.dropLast

/-- A segment as it is written after the given ones. The path of a file may start with a drive
letter, which is written with a colon. -/
def written (kind : Kind) (done : List (List Char)) (segment : List Char) : List Char :=
  if kind = .file ∧ done = [] ∧ isDrive segment then segment.take 1 ++ [':']
  else Percent.encode Percent.pathSet segment

/-- Takes the steps of a path in turn; a step at the end leaves the empty segment there. -/
def steps (kind : Kind) (done : List (List Char)) : List (List Char) → List (List Char)
  | [] => done
  | [last] =>
    if isUp last then up done ++ [[]]
    else if isHere last then done ++ [[]]
    else done ++ [written kind done last]
  | segment :: rest =>
    if isUp segment then steps kind (up done) rest
    else if isHere segment then steps kind done rest
    else steps kind (done ++ [written kind done segment]) rest

def joined (segments : List (List Char)) : List Char := segments.flatMap fun s => '/' :: s

/-- The segments of a path that starts at the root; its first slash may be missing. -/
def segments (kind : Kind) (cs : List Char) : List (List Char) :=
  let cs := match cs with
    | c :: rest => if isSlash kind c then rest else c :: rest
    | [] => []
  steps kind [] (cs.splitOnP (isSlash kind))

/-- Reads a path that starts at the root. -/
def rooted (kind : Kind) (cs : List Char) : List Char :=
  let path := joined (segments kind cs)
  if kind = .file then '/' :: path.dropWhile (· = '/') else path

/-- Whether the path of a file starts with a drive letter. -/
def hasDrive (cs : List Char) : Bool := ((segments .file cs).head?.map isDrive).getD false

/-! ## Reading -/

def tail (kind : Kind) (cs : List Char) : Option String × Option String :=
  let reserved := Percent.querySet ++ (if kind = .other then [] else ['\''])
  let fragment : List Char → Option String
    | '#' :: cs => some (String.ofList (Percent.encode Percent.fragmentSet cs))
    | _ => none
  match cs with
  | '?' :: cs =>
    let query := cs.takeWhile (· ≠ '#')
    (some (String.ofList (Percent.encode reserved query)), fragment (cs.drop query.length))
  | cs => (none, fragment cs)

/-- The part of an address up to its query or fragment. -/
def beforeQuery (cs : List Char) : List Char := cs.takeWhile fun c => c ≠ '?' && c ≠ '#'

/-- An address whose path and all that follows it are still to be read. -/
def finish (scheme : String) (host : Option Host) (port : Option Nat)
    (path : List Char → List Char) (cs : List Char) : Url :=
  let written := beforeQuery cs
  let (query, fragment) := tail (kind scheme) (cs.drop written.length)
  ⟨scheme, host, port, String.ofList (path written), query, fragment⟩

/-- Reads what follows the two slashes before a host. -/
def afterSlashes? (scheme : String) (cs : List Char) : Option Url :=
  let written := cs.takeWhile fun c => !endsAuthority (kind scheme) c
  let path (cs : List Char) : List Char :=
    if kind scheme = .other ∧ cs = [] then [] else rooted (kind scheme) cs
  (authority? scheme written).map fun (host, port) =>
    finish scheme (some host) port path (cs.drop written.length)

/-- Reads what follows the scheme of a file. A path with a drive letter is on no other host. -/
def file? (cs : List Char) : Option Url :=
  let here (cs : List Char) : Url := finish "file" (some (.name "")) none (rooted .file) cs
  match cs with
  | a :: b :: rest =>
    if isSlash .file a ∧ isSlash .file b then
      let written := rest.takeWhile fun c => !endsAuthority .file c
      if written.isEmpty ∨ isDrive written then some (here rest)
      else
        (Host.read? written).map fun host =>
          let after := rest.drop written.length
          if host = .name "localhost" ∨ hasDrive (beforeQuery after) then here after
          else finish "file" (some host) none (rooted .file) after
    else some (here cs)
  | _ => some (here cs)

/-- A path of an address without a host: a path that starts with two slashes gets a step to the
directory itself, so that its first segment is not taken for a host. -/
def hostless (cs : List Char) : List Char :=
  match cs with
  | '/' :: _ =>
    match rooted .other cs with
    | '/' :: '/' :: rest => '/' :: '.' :: '/' :: '/' :: rest
    | path => path
  | _ => Percent.encode [] cs

/-- The characters of an address: blanks at the ends and line breaks are passed over. -/
def significant (s : String) : List Char :=
  let isBlank (c : Char) : Bool := c.toNat ≤ 0x20
  let cs := ((s.toList.dropWhile isBlank).reverse.dropWhile isBlank).reverse
  cs.filter fun c => c ≠ '\t' && c ≠ '\n' && c ≠ '\r'

def parse? (s : String) : Option Url := do
  let (scheme, rest) ← scheme? (significant s)
  match kind scheme with
  | .known => afterSlashes? scheme (rest.dropWhile (isSlash .known))
  | .file => file? rest
  | .other =>
    match rest with
    | '/' :: '/' :: rest => afterSlashes? scheme rest
    | rest => some (finish scheme none none hostless rest)

/-! ## Use -/

/-- A text after a mark, if there is one. -/
def marked (mark : String) : Option String → String
  | some s => mark ++ s
  | none => ""

/-- The address without the fragment and what stands before the path. -/
def target (url : Url) : String := url.path ++ marked "?" url.query

def text (url : Url) : String :=
  url.scheme ++ ":" ++ marked "//" (url.host.map Host.text) ++
    marked ":" (url.port.map toString) ++ url.target ++ marked "#" url.fragment

/-- Whether an address names a host. -/
def hasHost (url : Url) : Bool := !(url.host = none || url.host = some (.name ""))

/-- Adds names and values to the query. -/
def withPairs (url : Url) (ps : List (String × String)) : Url :=
  if ps.isEmpty then url
  else
    let before := url.query.getD ""
    let joint := if before = "" then "" else before ++ "&"
    { url with query := some (joint ++ String.ofList (Percent.pairs ps)) }

end Url

end ChangeFeed.Net
