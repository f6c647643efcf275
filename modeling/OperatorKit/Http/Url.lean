import OperatorKit.Http.Host
import OperatorKit.Text.Blank

/-!
# Web addresses

The address of a resource on a web server: whether the line is secured, the host
and its port, the segments of the path and the query. Reading an address brings
path and query into the form that goes over the wire. Characters that may not
stand there are percent-encoded, `.` and `..` are resolved, and a backslash counts
as a slash. What a page does with a fragment is not the server's business, so it
is dropped. Addresses outside of the web are told apart from texts that are no
addresses, but nothing is kept of them.
-/

namespace OperatorKit.Http

/-- A web address. The segments and the query are percent-encoded. -/
structure Url where
  secure : Bool
  host : Host
  port : Nat
  path : List String
  query : String
  deriving DecidableEq, Repr

namespace Url

/-- What is asked of the server: the path, and the query if there is any. -/
def target (u : Url) : String :=
  "/" ++ "/".intercalate u.path ++ (if u.query.isEmpty then "" else "?" ++ u.query)

/-- The port of a scheme. -/
def defaultPort (secure : Bool) : Nat := if secure then 443 else 80

/-- The host, with the port unless it is the scheme's own. -/
def authority (u : Url) : String :=
  if u.port = defaultPort u.secure then u.host.text
  else u.host.text ++ ":" ++ Decimal.text u.port

/-! ## Characters -/

/-- Characters that stand nowhere in an address: controls, the blank, and all that
is not ASCII, and with them quotes and angle brackets. -/
def isForeign (c : Char) : Bool :=
  c.toNat ≤ 0x20 || 0x7F ≤ c.toNat || c == '"' || c == '#' || c == '<' || c == '>'

/-- Characters that are encoded in a path. -/
def isForeignToPath (c : Char) : Bool :=
  isForeign c || c == '?' || c == '`' || c == '\x7b' || c == '\x7d'

/-- Characters that are encoded in a query. -/
def isForeignToQuery (c : Char) : Bool := isForeign c || c == '\''

/-- Slashes of both directions. -/
def isSlash (c : Char) : Bool := c == '/' || c == '\\'

/-- The text without controls and blanks at its ends, and without any line ends
and tabs. -/
def clean (s : String) : List Char :=
  (Text.strip (fun c => c.toNat ≤ 0x20) s.toList).filter fun c =>
    !(c == '\t' || c == '\n' || c == '\r')

/-! ## Paths -/

/-- A segment with encoded dots as dots. -/
def plainDots : List Char → List Char
  | '%' :: '2' :: 'e' :: cs => '.' :: plainDots cs
  | '%' :: '2' :: 'E' :: cs => '.' :: plainDots cs
  | c :: cs                 => c :: plainDots cs
  | []                      => []

/-- A segment that stays where it is. -/
def isHere (s : List Char) : Bool := plainDots s == ['.']

/-- A segment that goes back by one. -/
def isBack (s : List Char) : Bool := plainDots s == ['.', '.']

/-- A segment that names a drive: a letter with a colon or a bar. -/
def isDrive : List Char → Bool
  | [c, d] => c.isAlpha && (d == ':' || d == '|')
  | _      => false

/-- Go back by one segment, but not out of a drive. -/
def goBack : List (List Char) → List (List Char)
  | []        => []
  | s :: done => if isDrive s then s :: done else done

/-- Resolve segments behind those in `done`, of which the last one comes first. A
path that ends in a resolved segment ends in a slash. -/
def resolve (done : List (List Char)) : List (List Char) → List (List Char)
  | []        => done.reverse
  | s :: rest =>
    let left := if isBack s then goBack done else if isHere s then done else s :: done
    if rest.isEmpty && (isBack s || isHere s) then ([] :: left).reverse else resolve left rest

/-- The segments of the text of a path. -/
def segmentsOf (cs : List Char) : List (List Char) :=
  (Text.splitBy isSlash cs).map (Percent.encode isForeignToPath)

/-- Read what stands behind the host and its port: the path, resolved from the
segments in `start`, and the query. -/
def pathAndQuery (start : List (List Char)) (cs : List Char) : List String × String :=
  let cs := cs.takeWhile (· != '#')
  let path := cs.takeWhile (· != '?')
  let path := if (path.head?.map isSlash).getD false then path.drop 1 else path
  let query := (cs.dropWhile (· != '?')).drop 1
  ((resolve start (segmentsOf path)).map String.ofList,
    String.ofList (Percent.encode isForeignToQuery query))

/-! ## Hosts and ports -/

/-- Cut a host off the text before the colon of a port. A colon between brackets
belongs to the host. -/
def cutHost (inBrackets : Bool) : List Char → List Char × List Char
  | []      => ([], [])
  | c :: cs =>
    if c == ':' && !inBrackets then ([], c :: cs)
    else
      let (host, rest) := cutHost (c == '[' || (inBrackets && c != ']')) cs
      (c :: host, rest)

/-- Read a port. Where there is none, it is the scheme's own. -/
def port? (own : Nat) : List Char → Option Nat
  | []      => some own
  | _ :: ds => if ds.isEmpty then some own else (Decimal.readDigits (2 ^ 16) 0 ds).toOption

/-- The text behind a name and a password. -/
def dropUser (cs : List Char) : List Char := (cs.reverse.takeWhile (· != '@')).reverse

/-- Read an address of the web behind its scheme and the slashes. -/
def behindSlashes? (secure : Bool) (cs : List Char) : Option Url :=
  let ends : Char → Bool := fun c => isSlash c || c == '?' || c == '#'
  let (host, port) := cutHost false (dropUser (cs.takeWhile (!ends ·)))
  match Host.ofText? host, port? (defaultPort secure) port with
  | some host, some port =>
    let (path, query) := pathAndQuery [] (cs.dropWhile (!ends ·))
    some { secure, host, port, path, query }
  | _, _ => none

/-! ## Relative addresses -/

/-- Read an address without a scheme, from the place of another one. Behind two
slashes there is a host, before which a third one may not stand. -/
def relative? (base : Url) (cs : List Char) : Option Url :=
  match cs with
  | []                 => some base
  | '#' :: _           => some base
  | '?' :: _           => some { base with query := (pathAndQuery [] cs).2 }
  | '/' :: '/' :: rest => behindSlashes? base.secure rest
  | c :: rest          =>
    if isSlash c && (rest.head?.map isSlash).getD false then
      behindSlashes? base.secure (cs.dropWhile isSlash)
    else
      let start := if isSlash c then [] else (base.path.dropLast.map String.toList).reverse
      let (path, query) := pathAndQuery start cs
      some { base with path, query }

/-! ## Schemes -/

/-- Read an address of the web behind its scheme. With the scheme of the place it
is given from, and fewer than two slashes, it is relative all the same. -/
def behindScheme? (base : Option Url) (secure : Bool) (cs : List Char) : Option Url :=
  let whole := behindSlashes? secure (cs.dropWhile isSlash)
  match base with
  | none   => whole
  | some b =>
    if b.secure == secure && (cs.takeWhile isSlash).length < 2 then relative? b cs else whole

/-- Cut a scheme off the text: a letter, then letters, digits, and a few signs, up
to a colon. -/
def cutScheme? (cs : List Char) : Option (String × List Char) :=
  let name := cs.takeWhile fun c => c.isAlphanum || c == '+' || c == '-' || c == '.'
  match (name.head?.map Char.isAlpha).getD false, cs.drop name.length with
  | true, ':' :: rest => some (String.ofList (name.map Char.toLower), rest)
  | _,    _           => none

end Url

/-- What an address leads to. -/
inductive Place where
  | web (url : Url)
  /-- Something outside of the web, with a host or without. -/
  | elsewhere (hosted : Bool)
  deriving DecidableEq, Repr

namespace Place

open Url

/-- An address of a scheme whose addresses look like those of the web. -/
def likeWeb? (cs : List Char) : Option Place :=
  (behindSlashes? false (cs.dropWhile isSlash)).map fun _ => .elsewhere true

/-- An address of a file, with a host behind two slashes or none. -/
def file? (cs : List Char) : Option Place :=
  match cs with
  | c :: d :: rest =>
    let host := rest.takeWhile fun c => !(isSlash c || c == '?' || c == '#')
    if !(isSlash c && isSlash d) || host.isEmpty || isDrive host then some (.elsewhere false)
    else (Host.ofText? host).map fun host => .elsewhere (host != .name "localhost")
  | _              => some (.elsewhere false)

/-- An address of any other scheme, with a host behind two slashes or none. -/
def foreign? : List Char → Option Place
  | '/' :: '/' :: cs =>
    let whole := cs.takeWhile fun c => !(c == '/' || c == '?' || c == '#')
    let (host, port) := cutHost false (dropUser whole)
    if host.isEmpty then (if whole.isEmpty then some (.elsewhere false) else none)
    else if Host.isOpaque host && (port? 0 port).isSome then some (.elsewhere true)
    else none
  | _                => some (.elsewhere false)

/-- Read an address, possibly given from the place of another one. -/
def ofText? (base : Option Url) (s : String) : Option Place :=
  match cutScheme? (clean s) with
  | none              => (base.bind fun b => relative? b (clean s)).map .web
  | some (name, rest) =>
    if name == "http" then (behindScheme? base false rest).map .web
    else if name == "https" then (behindScheme? base true rest).map .web
    else if ["ftp", "ws", "wss"].contains name then likeWeb? rest
    else if name == "file" then file? rest
    else foreign? rest

/-- The web address, if the place is on the web. -/
def url? : Place → Option Url
  | .web url     => some url
  | .elsewhere _ => none

end Place

/-- Read a web address. -/
def Url.ofText? (s : String) : Option Url := (Place.ofText? none s).bind Place.url?

end OperatorKit.Http
