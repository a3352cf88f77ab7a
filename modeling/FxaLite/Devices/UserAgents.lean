import FxaLite.Accounts.AttachedClients

/-!
# User agents

`user_agent.py`: as much of a `User-Agent` header as it takes to name a device.
-/

namespace FxaLite.Devices

open Accounts

/-- `\d`, of the characters that a header can hold. -/
def isDigit (c : Char) : Bool := 48 ≤ c.toNat && c.toNat ≤ 57

/-- The names that `_BROWSER_RE` knows, in any case. -/
def browserTokens : List String := ["Firefox", "FxiOS", "Fennec", "Focus", "SeaMonkey", "Thunderbird"]

/-- `_BROWSER_RE` at the beginning of a text: the name as it is spelled there, and the major version. -/
def matchBrowser (s : List Char) : Option (List Char × List Char) :=
  browserTokens.findSome? fun token =>
    let name := s.take token.length
    match s.drop token.length with
    | '/' :: rest =>
      if Py.lower name = Py.lower token.toList && rest.takeWhile isDigit ≠ [] then some (name, rest.takeWhile isDigit) else none
    | _ => none

/-- `_BROWSER_RE.search`. -/
def searchBrowser : List Char → Option (List Char × List Char)
  | [] => none
  | c :: rest => (matchBrowser (c :: rest)).or (searchBrowser rest)

/-- `_BROWSER_NAMES.get(name.lower(), name)`. -/
def browserName (name : List Char) : List Char :=
  if Py.lower name = "fxios".toList || Py.lower name = "fennec".toList then "Firefox".toList else name

/-- A text is somewhere in another. -/
def mentions (s : List Char) (text : String) : Bool := s.tails.any text.toList.isPrefixOf

/-- `Windows NT [\d.]+` is somewhere in a text. -/
def mentionsWindows (s : List Char) : Bool :=
  s.tails.any fun tail =>
    "Windows NT ".toList.isPrefixOf tail && (tail.drop "Windows NT ".length).head?.any fun c => isDigit c || c = '.'

/-- The first of `_OS_PATTERNS` that is found. -/
def searchOs (s : List Char) : List Char :=
  if mentionsWindows s then "Windows".toList
  else if mentions s "Android" then "Android".toList
  else if mentions s "iPhone" || mentions s "iPad" || mentions s "iPod" then "iOS".toList
  else if mentions s "Mac OS X" then "Mac OS X".toList
  else if mentions s "CrOS" then "Chrome OS".toList
  else if mentions s "Linux" || mentions s "X11" then "Linux".toList
  else []

/-- `parse`. -/
def parse (userAgent : String) : UserAgent :=
  match searchBrowser userAgent.toList with
  | some (name, version) => ⟨browserName name, version, searchOs userAgent.toList⟩
  | none => ⟨[], [], searchOs userAgent.toList⟩

/-- `UserAgent.is_mobile`. -/
def isMobile (parsed : UserAgent) : Bool := parsed.os = "Android".toList || parsed.os = "iOS".toList

/-- `synthesize_name`. -/
def synthesizeName (userAgent : String) : String := String.ofList (synthesize (parse userAgent))

end FxaLite.Devices
