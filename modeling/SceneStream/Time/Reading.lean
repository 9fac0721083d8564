import SceneStream.Time.Instant

/-!
# Reading an instant

The grammar is that of RFC 3339, read leniently: blanks may stand around numbers, numbers may be
shorter than they are written, a blank or a small letter may stand for the `T`, and the zone is
`Z`, `UTC` or an offset, which may leave out its colon. The year may have a sign, and then any
number of digits. The zone is mandatory, and the result is in universal time.
-/

namespace SceneStream.Instant

/-- A reader takes the beginning of a text and returns the rest. -/
abbrev Scan (α : Type) := StateT (List Char) Option α

namespace Scan

/-- The blanks that may stand around the numbers. -/
def isBlank (c : Char) : Bool :=
  let n := c.toNat
  9 ≤ n ∧ n ≤ 13 ∨ n = 0x20 ∨ n = 0x85 ∨ n = 0xA0 ∨ n = 0x1680 ∨ 0x2000 ≤ n ∧ n ≤ 0x200A ∨
    n = 0x2028 ∨ n = 0x2029 ∨ n = 0x202F ∨ n = 0x205F ∨ n = 0x3000

def skipWhile (p : Char → Bool) : Scan Unit := modify (List.dropWhile p)

def skipBlanks : Scan Unit := skipWhile isBlank

def refuse {α : Type} : Scan α := StateT.lift none

/-- Takes one character that satisfies `p`. -/
def char (p : Char → Bool) : Scan Char := do
  match ← get with
  | c :: rest => if p c then set rest; return c else refuse
  | [] => refuse

def literal (c : Char) : Scan Unit := do let _ ← char (· = c)

/-- Whether the text goes on with a character of `p`. -/
def peeks (p : Char → Bool) : Scan Bool := return (← get).head?.any p

/-- Takes the digits that come next, `limit` of them at most. -/
def digits (limit : Nat) : Scan (List Char) := do
  let found := ((← get).take limit).takeWhile Char.isDigit
  modify (List.drop found.length)
  return found

/-- The number that digits spell. -/
def numeral (ds : List Char) : Nat := ds.foldl (fun n c => n * 10 + (c.toNat - '0'.toNat)) 0

/-- Takes a number of at most `limit` digits. -/
def number (limit : Nat) : Scan Nat := do
  let ds ← digits limit
  if ds = [] then refuse else return numeral ds

/-- Takes a number between two bounds, after blanks. -/
def field (first last : Nat) : Scan Nat := do
  skipBlanks
  let n ← number 2
  if first ≤ n ∧ n ≤ last then return n else refuse

/-- Takes the year: four digits at most, or a sign and any number of them. -/
def year : Scan Int := do
  skipBlanks
  if ← peeks (· = '-') then
    literal '-'
    return -(← number (← get).length)
  else if ← peeks (· = '+') then
    literal '+'
    return (← number (← get).length)
  else return (← number 4)

/-- Takes a mark between two numbers, after blanks. -/
def mark (c : Char) : Scan Unit := do skipBlanks; literal c

/-- Takes the fraction of a second as nanoseconds; digits beyond the ninth are dropped. -/
def fraction : Scan Nat := do
  if ← peeks (· = '.') then
    literal '.'
    let ds ← digits 9
    if ds = [] then refuse
    skipWhile Char.isDigit
    return numeral ds * Nat.pow 10 (9 - ds.length)
  else return 0

/-- Takes two digits between two bounds. -/
def pair (last : Nat) : Scan Nat := do
  let a ← char Char.isDigit
  let b ← char Char.isDigit
  let n := numeral [a, b]
  if n ≤ last then return n else refuse

/-- Takes the zone, as seconds east of universal time. -/
def zone : Scan Int := do
  let text ← get
  if (text.take 3).map Char.toUpper = ['U', 'T', 'C'] then
    set (text.drop 3)
    return 0
  else if ← peeks (fun c => c = 'Z' ∨ c = 'z') then
    let _ ← char fun _ => true
    return 0
  else
    let sign ← char fun c => c = '+' ∨ c = '-' ∨ c = '\u2212'
    let hours ← pair 99
    skipWhile fun c => c = ':' || isBlank c
    let minutes ← pair 59
    let offset : Int := (hours * 3600 + minutes * 60 : Nat)
    if 86400 ≤ offset then refuse
    return if sign = '+' then offset else -offset

/-- Takes a whole date, time and zone. -/
def instant : Scan Instant := do
  let year ← year
  mark '-'
  let month ← field 1 12
  mark '-'
  let day ← field 1 31
  let _ ← char fun c => c = 't' ∨ c = 'T' ∨ c = ' '
  let hour ← field 0 23
  mark ':'
  let minute ← field 0 59
  mark ':'
  let second ← field 0 60
  let nanos ← fraction
  skipBlanks
  let offset ← zone
  skipBlanks
  let date : Date := ⟨year, month, day⟩
  if ¬ (firstYear ≤ year ∧ year ≤ lastYear ∧ date.isValid) then refuse
  let leap := if second = 60 then 1 else 0
  let seconds := date.toDays * 86400 + (hour * 3600 + minute * 60 + (second - leap) : Nat) - offset
  StateT.lift (of? seconds (nanos + leap * billion))

end Scan

/-- The instant that a text denotes, if it is the text of one. -/
def ofText? (text : String) : Option Instant :=
  (Scan.instant.run text.toList).bind fun (t, rest) => if rest = [] then some t else none

end SceneStream.Instant
