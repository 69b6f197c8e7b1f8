import Custody.Text.Case
import Custody.Text.Digit
import Custody.Text.Blank
import Custody.Text.HostName
import Custody.Text.Percent

/-!
# Addresses

An address has a scheme, an authority, a path, a query and a fragment, all of which may be missing.
Characters that a part cannot hold are percent-encoded, and in an address with a scheme or an
authority the dots of its path are resolved. An address without both scheme and host is taken to lie
below another one.

> `withoutDots_of_plain`: pieces without dots stay as they are.
-/

namespace Custody

/-- An address, its parts as they are sent. -/
structure Address where
  scheme : List Char
  userInfo : List Char
  host : List Char
  port : Option Int
  path : List Char
  query : Option (List Char)
  fragment : Option (List Char)
deriving DecidableEq, Repr

namespace Address

/-! ## Percent encoding -/

/-- The characters that are encoded in every part. -/
def encodedInFragment : List Char := [' ', '"', '<', '>', '\x60']

/-- The characters that are encoded in a query. -/
def encodedInQuery : List Char := [' ', '"', '#', '<', '>']

/-- The characters that are encoded in a path. -/
def encodedInPath : List Char := encodedInQuery ++ ['?', '\x60', '\x7b', '\x7d']

/-- The characters that are encoded in the name and the password of a user. -/
def encodedInUser : List Char :=
  encodedInPath ++ ['/', ';', '=', '@', '[', '\\', ']', '^', '|']

/-- The characters that are encoded in the name of a host. -/
def encodedInHost : List Char := [' ', '#', '/', ':', '<', '>', '?', '@', '[', ']', '^']

/-- A character as its percent-encoded bytes, with large digits. -/
def encodedChar (c : Char) : List Char :=
  (String.ofList [c]).toUTF8.toList.flatMap fun b =>
    '%' :: (Text.digitsOfWidth 16 2 b.toNat).map Char.toUpper

/-- A text with some characters percent-encoded, and all that is not ASCII. A percent sign stays. -/
def encoded (those : List Char) (cs : List Char) : List Char :=
  cs.flatMap fun c => if c.toNat < 127 && c ∉ those then [c] else encodedChar c

/-! ## Paths -/

/-- The pieces of a path without those of one or two dots: one stands for nothing, two take the
piece before them back. What stands before the first slash stays. -/
def withoutDots (pieces : List (List Char)) : List (List Char) :=
  pieces.foldl (fun kept p =>
    if p = ['.'] then kept
    else if p = ['.', '.'] then if kept = [[]] then kept else kept.dropLast
    else kept ++ [p]) []

/-- A path without pieces of dots. -/
def resolveDots (path : List Char) : List Char := ['/'].intercalate (withoutDots (path.splitOn '/'))

/-! ## Authorities -/

/-- Whether a text has four runs of digits with one character between them, as the numbers of a host
have. After each character a list tells in which of the four runs it may stand, and whether that run
has begun. -/
def isFourNumbers (cs : List Char) : Bool :=
  let step (states : List (Nat × Bool)) (c : Char) : List (Nat × Bool) :=
    (states.flatMap fun (n, begun) =>
      (if Text.isAsciiDigit c then [(n, true)] else []) ++
      (if begun && n < 3 then [(n + 1, false)] else [])).eraseDups
  (cs.foldl step [(0, false)]).contains (3, true)

/-- Whether a text is a number below 256 without a zero in front. -/
def isOctet (cs : List Char) : Bool :=
  let ds := cs.filterMap Text.asciiDigit?
  ds.length = cs.length && 1 ≤ cs.length && cs.length ≤ 3 && Text.ofDigits 10 ds < 256 &&
    (cs.length = 1 || ds.head? ≠ some 0)

/-- Whether a text is a host of four numbers. -/
def isIPv4 (cs : List Char) : Bool :=
  let ps := cs.splitOn '.'
  ps.length = 4 && ps.all isOctet

/-- Whether a text has up to four hexadecimal digits. -/
def isHextet (cs : List Char) : Bool :=
  1 ≤ cs.length && cs.length ≤ 4 && cs.all fun c => (Text.hexDigit? c).isSome

/-- Whether a text is a host of eight numbers, of which a run may be left out. A zone may follow. -/
def isIPv6 (cs : List Char) : Bool :=
  let zone := (cs.dropWhile (· != '%')).drop 1
  let address := cs.takeWhile (· != '%')
  let ps := address.splitOn ':'
  let ps := match ps.getLast? with
    | some last =>
      if last.contains '.' then
        if isIPv4 last then ps.dropLast ++ [['0'], ['0']] else []
      else ps
    | none => ps
  let gaps := ((ps.drop 1).dropLast.filter List.isEmpty).length
  let startsOpen := ps.head? = some []
  let endsOpen := ps.getLast? = some []
  let openEnds := (if startsOpen then 1 else 0) + (if endsOpen then 1 else 0)
  (if cs.contains '%' then !zone.isEmpty && !zone.contains '%' && !zone.contains '/' else true) &&
    3 ≤ ps.length && ps.length ≤ 9 && ps.all (fun p => p.isEmpty || isHextet p) &&
    (if gaps = 0 then ps.length = 8 && openEnds = 0
      else gaps = 1 && (!startsOpen || ps[1]? = some []) &&
        (!endsOpen || (ps.dropLast).getLast? = some []) && (ps.length - 1 - openEnds < 8))

/-- The host that an authority names: numbers have to be right, other names are written small. -/
def host? (cs : List Char) : Option (List Char) :=
  if isFourNumbers cs then (if isIPv4 cs then some cs else none)
  else if cs.head? = some '[' ∧ cs.getLast? = some ']' ∧ 2 ≤ cs.length then
    let inner := (cs.drop 1).dropLast
    if isIPv6 inner then some inner else none
  else if cs.all fun c => c.toNat < 128 then some (encoded encodedInHost (cs.map Text.foldAscii))
  else
    let name := (Text.lower (String.ofList cs)).toList
    if Text.isHostName name then some name else none

/-- Digits with single underscores between them. -/
def groupedDigits? (cs : List Char) : Option (List Nat) :=
  let pieces := cs.splitOn '_'
  if pieces.all fun p => !p.isEmpty then (pieces.flatten.mapM Text.asciiDigit?) else none

/-- The port that an authority names, if it names one; none when it is no number. -/
def port? (cs : List Char) : Option (Option Int) :=
  if cs.isEmpty then some none
  else
    let (negative, body) := match (Text.trimSpaces cs).map Text.plainDigit with
      | '-' :: r => (true, r)
      | '+' :: r => (false, r)
      | r => (false, r)
    (groupedDigits? body).map fun ds =>
      let n : Int := Text.ofDigits 10 ds
      some (if negative then -n else n)

/-- The user, the host and the port of an authority, as they stand there. -/
def authorityParts (cs : List Char) : List Char × List Char × List Char :=
  let (user, rest) :=
    if cs.contains '@' then (cs.takeWhile (· != '@'), (cs.dropWhile (· != '@')).drop 1) else ([], cs)
  let bracketed := (rest.reverse.dropWhile (· != ']')).reverse
  let host :=
    if rest.head? = some '[' ∧ !bracketed.isEmpty then bracketed
    else rest.takeWhile fun c => c != ':' && c != '@'
  let after := rest.drop host.length
  (user, host, if after.head? = some ':' then after.drop 1 else after)

/-! ## Reading -/

/-- The most characters of an address. -/
def lengthMost : Nat := 65536

/-- Whether a character may stand in an address: among those of ASCII the printable ones. -/
def isAllowed (c : Char) : Bool := 128 ≤ c.toNat || (32 ≤ c.toNat && c.toNat < 127)

/-- Whether there is an authority. -/
def hasAuthority (a : Address) : Bool := !a.userInfo.isEmpty || !a.host.isEmpty || a.port.isSome

/-- The address with a path and a query. Behind an authority a path begins with a slash; without
scheme and authority it begins neither with two slashes nor with a colon. -/
def withPath? (a : Address) (path : List Char) (query : Option (List Char)) : Option Address :=
  let rooted := path.isEmpty || path.head? = some '/'
  let bare := a.scheme.isEmpty && !a.hasAuthority
  if a.hasAuthority && !rooted then none
  else if bare && (['/', '/'].isPrefixOf path || path.head? = some ':') then none
  else
    let path := if bare then path else resolveDots path
    some { a with path := encoded encodedInPath path, query := query.map (encoded encodedInQuery) }

/-- The scheme in front of a text, which may be empty, and the rest. -/
def spanScheme (cs : List Char) : List Char × List Char :=
  let isLetter (c : Char) : Bool := c.isAlpha
  let isPart (c : Char) : Bool := c.isAlphanum || c = '+' || c = '.' || c = '-'
  let word := match cs with
    | c :: rest => if isLetter c then c :: rest.takeWhile isPart else []
    | [] => []
  match cs.drop word.length with
  | ':' :: rest => (word, rest)
  | _ => ([], cs)

/-- A text split at the first occurrence of a mark, and what stands behind it if there is one. -/
def splitAtMark (mark : Char) (cs : List Char) : List Char × Option (List Char) :=
  let front := cs.takeWhile (· != mark)
  (front, if cs.contains mark then some (cs.drop (front.length + 1)) else none)

/-- The address that a text stands for. -/
def ofText? (text : String) : Option Address :=
  let cs := text.toList
  if lengthMost < cs.length || !cs.all isAllowed then none
  else
    let (cs, fragment) := splitAtMark '#' cs
    let (scheme, rest) := spanScheme cs
    let (rest, query) := splitAtMark '?' rest
    let (authority, path) := match rest with
      | '/' :: '/' :: r => (r.takeWhile (· != '/'), r.dropWhile (· != '/'))
      | r => ([], r)
    let (user, host, port) := authorityParts authority
    (host? host).bind fun host =>
      (port? port).bind fun port =>
        withPath? ⟨scheme.map Text.foldAscii, encoded encodedInUser user, host, port, [], none,
          fragment.map (encoded encodedInFragment)⟩ path query

/-! ## Use -/

/-- What is asked of the host: the path, which is a slash where there is none, and the query. -/
def target (a : Address) : List Char :=
  (if a.path.isEmpty then ['/'] else a.path) ++ (a.query.map ('?' :: ·)).getD []

/-- The address with another target. What was encoded in the name of its host is written small. -/
def withTarget? (a : Address) (target : List Char) : Option Address :=
  let (path, query) := splitAtMark '?' target
  let host := if a.host.contains ':' then a.host else a.host.map Text.foldAscii
  { a with host := host }.withPath? path query

/-- The address with a slash at the end of its target. -/
def opened? (a : Address) : Option Address :=
  if a.target.getLast? = some '/' then some a else a.withTarget? (a.target ++ ['/'])

/-- The address that a text names below another one. A text with scheme and host names it alone. -/
def below? (base : Address) (text : String) : Option Address := do
  let a ← ofText? text
  if !a.scheme.isEmpty && !a.host.isEmpty then some a
  else base.withTarget? (base.target ++ a.target.dropWhile (· = '/'))

/-- The address as text. -/
def text (a : Address) : String :=
  let authority :=
    (if a.userInfo.isEmpty then [] else a.userInfo ++ ['@']) ++
    (if a.host.contains ':' then '[' :: a.host ++ [']'] else a.host) ++
    (a.port.map fun n => ':' :: (toString n).toList).getD []
  String.ofList (
    (if a.scheme.isEmpty then [] else a.scheme ++ [':']) ++
    (if authority.isEmpty then [] else '/' :: '/' :: authority) ++
    a.path ++ (a.query.map ('?' :: ·)).getD [] ++
    ((a.fragment.filter fun f => !f.isEmpty).map ('#' :: ·)).getD [])

/-- Whether the text of an address begins with the kind that it has. -/
def tellsKind (a : Address) : Bool :=
  let word := a.text.toList.takeWhile fun c => c != '/' && c != ':'
  !word.isEmpty && (a.text.toList.drop word.length).head? = some ':'

/-- The name and the password of the user, if there are any. -/
def credentials? (a : Address) : Option (String × String) :=
  let (name, password) := splitAtMark ':' a.userInfo
  let plain (cs : List Char) : String := String.ofList (Text.unquote cs)
  let user := plain name
  let secret := plain (password.getD [])
  if user = "" ∧ secret = "" then none else some (user, secret)

theorem withoutDots_of_plain {ps : List (List Char)} (h : ∀ p ∈ ps, p ≠ ['.'] ∧ p ≠ ['.', '.']) :
    withoutDots ps = ps := by
  have run (kept : List (List Char)) (h : ∀ p ∈ ps, p ≠ ['.'] ∧ p ≠ ['.', '.']) :
      ps.foldl (fun kept p =>
        if p = ['.'] then kept
        else if p = ['.', '.'] then if kept = [[]] then kept else kept.dropLast
        else kept ++ [p]) kept = kept ++ ps := by
    induction ps generalizing kept with
    | nil => simp
    | cons p ps ih =>
      have hp := h p (by simp)
      rw [List.foldl_cons, if_neg hp.1, if_neg hp.2, ih (fun q hq => h q (by simp [hq]))
        _ fun q hq => h q (by simp [hq])]
      simp
  simpa [withoutDots] using run [] h

end Address

end Custody
