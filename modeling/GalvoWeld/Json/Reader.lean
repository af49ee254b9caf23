import GalvoWeld.Number.Decimal

/-!
# One pass over JSON text

A reader takes a value of one type from the head of a text. It goes through the text once, from
left to right, and stops at the first flaw: the text ends too early, it is not JSON, or it is JSON
of another shape than expected. A value that nobody asked for is skipped, at any depth, by its
syntax alone.
-/

namespace GalvoWeld.Json

open Number

/-- What is wrong with a document. -/
inductive Flaw where
  /-- The text ends inside a value. -/
  | cut
  /-- The text is not JSON. -/
  | malformed
  /-- The value has the wrong shape. -/
  | misshapen
  /-- There is no text to read: what was opened is a directory. -/
  | unreadable
deriving DecidableEq, Repr

def Flaw.message : Flaw → String
  | .cut => "the text ends too early"
  | .malformed => "the text is not JSON"
  | .misshapen => "the value has the wrong shape"
  | .unreadable => "Is a directory (os error 21)"

/-- Takes a value from the head of a text. -/
abbrev Reader (α : Type) := List Char → Except Flaw (α × List Char)

/-! ### White space and words -/

/-- The four blanks of JSON. -/
def isSpace (c : Char) : Bool := c = ' ' || c = '\n' || c = '\t' || c = '\r'

def skipSpace (cs : List Char) : List Char := cs.dropWhile isSpace

/-- Takes the rest of a word such as `null`. -/
def word : List Char → Reader Unit
  | [], cs => .ok ((), cs)
  | _ :: _, [] => .error .cut
  | w :: ws, c :: cs => if c = w then word ws cs else .error .malformed

/-! ### Strings -/

/-- The value of four hexadecimal digits at the head of a text. They take up four bytes, so that a
text that is shorter ends too early. -/
def hexUnit : Reader Nat
  | a :: b :: c :: d :: rest =>
    match [a, b, c, d].mapM hexDigit? with
    | some digits => .ok (digits.foldl (fun n d => 16 * n + d) 0, rest)
    | none => .error .malformed
  | cs => .error (if 4 ≤ (String.ofList cs).utf8ByteSize then .malformed else .cut)
where
  hexDigit? (c : Char) : Option Nat :=
    if '0' ≤ c && c ≤ '9' then some (c.toNat - '0'.toNat)
    else if 'a' ≤ c && c ≤ 'f' then some (c.toNat - 'a'.toNat + 10)
    else if 'A' ≤ c && c ≤ 'F' then some (c.toNat - 'A'.toNat + 10)
    else none

/-- The character of an escape `\u`, behind these two characters. A unit of the upper surrogates
is followed by an escape of the lower ones. -/
def unicodeEscape : Reader Char := fun cs => do
  let (high, rest) ← hexUnit cs
  if 0xdc00 ≤ high ∧ high ≤ 0xdfff then .error .malformed
  else if high < 0xd800 ∨ 0xdbff < high then .ok (Char.ofNat high, rest)
  else
    let rest ← escapeMark '\\' rest
    let rest ← escapeMark 'u' rest
    let (low, rest) ← hexUnit rest
    if 0xdc00 ≤ low ∧ low ≤ 0xdfff then
      .ok (Char.ofNat (0x10000 + (high - 0xd800) * 0x400 + (low - 0xdc00)), rest)
    else .error .malformed
where
  /-- Takes one expected character. -/
  escapeMark (mark : Char) : List Char → Except Flaw (List Char)
    | [] => .error .cut
    | c :: rest => if c = mark then .ok rest else .error .malformed

/-- The characters that an escape of one letter stands for. -/
def simpleEscape? : Char → Option Char
  | '"' => some '"'
  | '\\' => some '\\'
  | '/' => some '/'
  | 'b' => some '\x08'
  | 'f' => some '\x0c'
  | 'n' => some '\n'
  | 'r' => some '\r'
  | 't' => some '\t'
  | _ => none

/-- The character of an escape, behind the backslash. -/
def escape : Reader Char
  | [] => .error .cut
  | 'u' :: rest => unicodeEscape rest
  | c :: rest =>
    match simpleEscape? c with
    | some e => .ok (e, rest)
    | none => .error .malformed

/-- The rest of a string behind its opening quote, given the characters read so far in reverse.
The first text is at least as long as what is read; it only bounds the number of characters. -/
def stringRest : List Char → List Char → Reader (List Char)
  | [], _, _ => .error .cut
  | _ :: _, _, [] => .error .cut
  | _ :: bound, read, c :: rest =>
    if c = '"' then .ok (read.reverse, rest)
    else if c = '\\' then do
      let (e, rest) ← escape rest
      stringRest bound (e :: read) rest
    else if c.toNat < 0x20 then .error .malformed
    else stringRest bound (c :: read) rest

def stringBody : Reader (List Char) := fun cs => stringRest cs [] cs

/-- Skips the rest of a string. The units of an escape `\u` need not be characters. The first text
only bounds the number of characters. -/
def skipStringRest : List Char → Reader Unit
  | [], _ => .error .cut
  | _ :: _, [] => .error .cut
  | _ :: bound, c :: rest =>
    if c = '"' then .ok ((), rest)
    else if c = '\\' then
      match rest with
      | [] => .error .cut
      | 'u' :: rest => do
        let (_, rest) ← hexUnit rest
        skipStringRest bound rest
      | e :: rest =>
        if (simpleEscape? e).isSome then skipStringRest bound rest else .error .malformed
    else if c.toNat < 0x20 then .error .malformed
    else skipStringRest bound rest

/-- Skips a string behind its opening quote. -/
def skipString : Reader Unit := fun cs => skipStringRest cs cs

/-! ### Numbers -/

/-- A number as it is written: a natural number, a negative integer, or anything else. -/
inductive Numeral where
  | natural (n : Nat)
  /-- The integer `-n`, for a positive `n`. -/
  | negative (n : Nat)
  | real (x : Float)

def Numeral.toFloat : Numeral → Float
  | .natural n => Float.ofNat n
  | .negative n => -Float.ofNat n
  | .real x => x

/-- The digits of a number are kept exactly below this bound, `2^64`. -/
def digitsBound : Nat := 18446744073709551616

/-- A negative integer `-n` is kept exactly up to this `n`, `2^63`. -/
def maxNegative : Nat := 9223372036854775808

/-- Appends digits to a number as long as it stays below `2^64`; the digits that do not fit are
left over. -/
def absorbDigits (n : Nat) : List Char → Nat × List Char
  | [] => (n, [])
  | d :: ds =>
    let next := 10 * n + (d.toNat - '0'.toNat)
    if next < digitsBound then absorbDigits next ds else (n, d :: ds)

/-- Divides by a power of ten, in steps of `10^308`. -/
def divPowerOfTen (x : Float) (k : Nat) : Float :=
  if k ≤ 308 then x / Float.ofScientific 1 false k
  else if x == 0 then x
  else divPowerOfTen (x / 1e308) (k - 308)
termination_by k

/-- The double of `digits · 10^exponent` for up to 64 bits of digits: the digits as a double,
multiplied or divided once by a power of ten. A number beyond the doubles is no number. -/
def scaleDigits? (digits : Nat) (exponent : Int) : Option Float :=
  let x := Float.ofNat digits
  match exponent with
  | .ofNat k =>
    if k ≤ 308 then
      let y := x * Float.ofScientific 1 false k
      if y.isInf then none else some y
    else if digits = 0 then some x
    else none
  | .negSucc k => some (divPowerOfTen x (k + 1))

/-- A number with a point or an exponent from its parts. -/
def real (negative : Bool) (digits : Nat) (exponent : Int) (rest : List Char) :
    Except Flaw (Numeral × List Char) :=
  match scaleDigits? digits exponent with
  | some x => .ok (.real (if negative then -x else x), rest)
  | none => .error .malformed

/-- The exponent of a number behind its mark `e`. -/
def exponentPart : Reader Int := fun cs =>
  let (below, unsigned) := spanSign cs
  let (digits, rest) := spanDigits unsigned
  if digits.isEmpty then .error (if unsigned.isEmpty then .cut else .malformed)
  else
    let size : Int := digitsValue digits
    .ok (if below then -size else size, rest)

/-- The end of a number behind its digits: an exponent, or nothing. -/
def afterDigits (negative : Bool) (digits : Nat) (exponent : Int) : Reader Numeral
  | [] => real negative digits exponent []
  | c :: rest =>
    if c = 'e' ∨ c = 'E' then do
      let (shift, rest) ← exponentPart rest
      real negative digits (exponent + shift) rest
    else real negative digits exponent (c :: rest)

/-- The places of a number behind its point. -/
def placesPart (negative : Bool) (digits : Nat) (exponent : Int) : Reader Numeral := fun cs =>
  let (places, rest) := spanDigits cs
  if places.isEmpty then .error (if rest.isEmpty then .cut else .malformed)
  else
    let (digits, unread) := absorbDigits digits places
    afterDigits negative digits (exponent - (places.length - unread.length : Nat)) rest

/-- An integer that is written without a point and an exponent. -/
def Numeral.ofDigits (negative : Bool) (n : Nat) : Numeral :=
  if !negative then .natural n
  else if n = 0 ∨ maxNegative < n then .real (-Float.ofNat n)
  else .negative n

/-- A number behind its sign. Its first digits up to `2^64` count, further ones only by their
number. -/
def numeral (negative : Bool) : Reader Numeral := fun cs =>
  let (whole, rest) := spanDigits cs
  match whole with
  | [] => .error (if rest.isEmpty then .cut else .malformed)
  | '0' :: _ :: _ => .error .malformed
  | whole =>
    let (digits, unread) := absorbDigits 0 whole
    let exponent : Int := unread.length
    match rest with
    | '.' :: rest => placesPart negative digits exponent rest
    | rest =>
      if unread.isEmpty ∧ (rest.head?.all fun c => c ≠ 'e' ∧ c ≠ 'E') then
        .ok (Numeral.ofDigits negative digits, rest)
      else afterDigits negative digits exponent rest

/-- Skips a number behind its sign. No digits where some are needed is a flaw of the syntax, also
at the end of the text. -/
def skipNumeral : Reader Unit := fun cs =>
  let (whole, rest) := spanDigits cs
  match whole with
  | [] => .error .malformed
  | '0' :: _ :: _ => .error .malformed
  | _ =>
    match rest with
    | '.' :: rest =>
      let (places, rest) := spanDigits rest
      if places.isEmpty then .error .malformed else skipExponent rest
    | rest => skipExponent rest
where
  /-- Skips an exponent if there is one. -/
  skipExponent : Reader Unit
    | [] => .ok ((), [])
    | c :: rest =>
      if c = 'e' ∨ c = 'E' then
        let (digits, rest) := spanDigits (spanSign rest).2
        if digits.isEmpty then .error .malformed else .ok ((), rest)
      else .ok ((), c :: rest)

/-! ### Values that nobody asked for -/

/-- An open bracket around a skipped value. -/
inductive Bracket where
  | list
  | object
deriving DecidableEq, Repr

def Bracket.closing : Bracket → Char
  | .list => ']'
  | .object => '}'

/-- Skips the key of an entry, with its colon. -/
def skipKey : Reader Unit := fun cs =>
  match skipSpace cs with
  | [] => .error .cut
  | '"' :: rest => do
    let (_, rest) ← skipString rest
    match skipSpace rest with
    | [] => .error .cut
    | ':' :: rest => .ok ((), rest)
    | _ :: _ => .error .malformed
  | _ :: _ => .error .malformed

/-- Skips a value that is no list and no object, or the bracket that opens one. -/
def skipHead : Reader (Option Bracket) := fun cs =>
  let scalar : Except Flaw (Unit × List Char) → Except Flaw (Option Bracket × List Char) :=
    fun r => r.map fun (_, rest) => (none, rest)
  match skipSpace cs with
  | [] => .error .cut
  | 'n' :: rest => scalar (word ['u', 'l', 'l'] rest)
  | 't' :: rest => scalar (word ['r', 'u', 'e'] rest)
  | 'f' :: rest => scalar (word ['a', 'l', 's', 'e'] rest)
  | '"' :: rest => scalar (skipString rest)
  | '-' :: rest => scalar (skipNumeral rest)
  | '[' :: rest => .ok (some .list, rest)
  | '{' :: rest => .ok (some .object, rest)
  | c :: rest => if isDigit c then scalar (skipNumeral (c :: rest)) else .error .malformed

/-- Skips the head of an entry of a bracket, with its key where the bracket is an object. -/
def skipEntry (bracket : Bracket) : Reader (Option Bracket) := fun cs =>
  match bracket with
  | .list => skipHead cs
  | .object => do
    let (_, rest) ← skipKey cs
    skipHead rest

/-- Skips the rest of a value within open brackets, the innermost first, which `fresh` was opened
just now. Every step takes a character; the first text only bounds their number. -/
def skipWithin : List Char → Bool → List Bracket → Reader Unit
  | _, _, [], cs => .ok ((), cs)
  | [], _, _ :: _, _ => .error .cut
  | _ :: bound, fresh, bracket :: outer, cs =>
    match skipSpace cs with
    | [] => .error .cut
    | c :: rest =>
      if c = bracket.closing then skipWithin bound false outer rest
      else if !fresh && c ≠ ',' then .error .malformed
      else do
        match ← skipEntry bracket (if fresh then c :: rest else rest) with
        | (none, rest) => skipWithin bound false (bracket :: outer) rest
        | (some inner, rest) => skipWithin bound true (inner :: bracket :: outer) rest

def skipValue : Reader Unit := fun cs => do
  match ← skipHead cs with
  | (none, rest) => .ok ((), rest)
  | (some bracket, rest) => skipWithin cs true [bracket] rest

/-! ### Values of a type -/

/-- A value of another type than expected stands here: its flaw is its shape if its head is
sound. -/
def wrongShape {α : Type} : Reader α := fun cs =>
  match cs with
  | [] => .error .cut
  | 'n' :: rest => do
    let _ ← word ['u', 'l', 'l'] rest
    .error .misshapen
  | 't' :: rest => do
    let _ ← word ['r', 'u', 'e'] rest
    .error .misshapen
  | 'f' :: rest => do
    let _ ← word ['a', 'l', 's', 'e'] rest
    .error .misshapen
  | '"' :: rest => do
    let _ ← stringBody rest
    .error .misshapen
  | '-' :: rest => do
    let _ ← numeral true rest
    .error .misshapen
  | '[' :: _ => .error .misshapen
  | '{' :: _ => .error .misshapen
  | c :: _ => do
    if isDigit c then
      let _ ← numeral false cs
      .error .misshapen
    else .error .malformed

def readNumeral : Reader Numeral := fun cs =>
  match skipSpace cs with
  | '-' :: rest => numeral true rest
  | [] => .error .cut
  | c :: rest => if isDigit c then numeral false (c :: rest) else wrongShape (c :: rest)

def readDouble : Reader Float := fun cs => do
  let (n, rest) ← readNumeral cs
  .ok (n.toFloat, rest)

/-- A natural number below `bound`. -/
def readNat (bound : Nat) : Reader Nat := fun cs => do
  let (n, rest) ← readNumeral cs
  match n with
  | .natural n => if n < bound then .ok (n, rest) else .error .misshapen
  | _ => .error .misshapen

/-- An integer within `[low, high]`. -/
def readInt (low high : Int) : Reader Int := fun cs => do
  let (n, rest) ← readNumeral cs
  let inRange := fun i : Int => if low ≤ i ∧ i ≤ high then .ok (i, rest) else .error .misshapen
  match n with
  | .natural n => inRange n
  | .negative n => inRange (-n)
  | .real _ => .error .misshapen

def readString : Reader String := fun cs =>
  match skipSpace cs with
  | '"' :: rest => do
    let (s, rest) ← stringBody rest
    .ok (String.ofList s, rest)
  | cs => wrongShape cs

/-- A value, or `null` for none. -/
def readOption {α : Type} (read : Reader α) : Reader (Option α) := fun cs =>
  match skipSpace cs with
  | 'n' :: rest => do
    let (_, rest) ← word ['u', 'l', 'l'] rest
    .ok (none, rest)
  | cs => do
    let (a, rest) ← read cs
    .ok (some a, rest)

def readNull : Reader Unit := fun cs =>
  match skipSpace cs with
  | 'n' :: rest => word ['u', 'l', 'l'] rest
  | cs => wrongShape cs

def readColon : Reader Unit := fun cs =>
  match skipSpace cs with
  | [] => .error .cut
  | ':' :: rest => .ok ((), rest)
  | _ :: _ => .error .malformed

/-- A key: a string, and nothing else is JSON there. -/
def readKey : Reader String := fun cs =>
  match skipSpace cs with
  | [] => .error .cut
  | '"' :: rest => do
    let (s, rest) ← stringBody rest
    .ok (String.ofList s, rest)
  | _ :: _ => .error .malformed

/-- The name of a constant: a string, or an object whose only key is the name, with the value
`null`. -/
def readName {α : Type} (ofName? : String → Option α) : Reader α := fun cs =>
  match skipSpace cs with
  | [] => .error .cut
  | '"' :: rest => do
    let (s, rest) ← stringBody rest
    match ofName? (String.ofList s) with
    | some a => .ok (a, rest)
    | none => .error .misshapen
  | '{' :: rest => do
    let (s, rest) ← readKey rest
    match ofName? s with
    | none => .error .misshapen
    | some a =>
      let (_, rest) ← readColon rest
      let (_, rest) ← readNull rest
      match skipSpace rest with
      | [] => .error .cut
      | '}' :: rest => .ok (a, rest)
      | _ :: _ => .error .malformed
  | _ :: _ => .error .malformed

/-! ### Lists and records -/

/-- Is there a further element? The text behind the comma in front of it, or `none` in front of
the closing bracket. -/
def nextElement (first : Bool) : List Char → Except Flaw (Option (List Char)) := fun cs =>
  match skipSpace cs with
  | [] => .error .cut
  | ']' :: _ => .ok none
  | c :: rest =>
    if first then .ok (some (c :: rest))
    else if c = ',' then
      match skipSpace rest with
      | [] => .error .cut
      | ']' :: _ => .error .malformed
      | rest => .ok (some rest)
    else .error .malformed

/-- The closing bracket of a list whose elements have all been read. -/
def closeList : Reader Unit := fun cs =>
  match skipSpace cs with
  | [] => .error .cut
  | ']' :: rest => .ok ((), rest)
  | _ :: _ => .error .malformed

/-- The elements of a list behind its opening bracket, those read so far in reverse. The first
text only bounds their number. -/
def listRest {α : Type} (read : Reader α) : List Char → Bool → List α → Reader (List α)
  | [], _, _, _ => .error .cut
  | _ :: bound, first, done, cs => do
    match ← nextElement first cs with
    | none =>
      let (_, rest) ← closeList cs
      .ok (done.reverse, rest)
    | some cs =>
      let (a, rest) ← read cs
      listRest read bound false (a :: done) rest

/-- A list of values. -/
def readList {α : Type} (read : Reader α) : Reader (List α) := fun cs =>
  match skipSpace cs with
  | '[' :: rest => listRest read ('[' :: rest) true [] rest
  | cs => wrongShape cs

/-- An element that a list must have. -/
def readElement {α : Type} (read : Reader α) (first : Bool) : Reader α := fun cs => do
  match ← nextElement first cs with
  | some cs => read cs
  | none => .error .misshapen

/-- A list of exactly two values. -/
def readPair {α β : Type} (readFirst : Reader α) (readSecond : Reader β) : Reader (α × β) :=
  fun cs =>
    match skipSpace cs with
    | '[' :: rest => do
      let (a, rest) ← readElement readFirst true rest
      let (b, rest) ← readElement readSecond false rest
      let (_, rest) ← closeList rest
      .ok ((a, b), rest)
    | cs => wrongShape cs

/-- A member of a record: its key, and how its value is put into the record. -/
structure Member (ρ : Type) where
  key : String
  read : ρ → Reader ρ

/-- A member whose value is read by `read` and put into the record by `put`. -/
def Member.of {ρ α : Type} (key : String) (read : Reader α) (put : ρ → α → ρ) : Member ρ :=
  ⟨key, fun r cs => do
    let (a, rest) ← read cs
    .ok (put r a, rest)⟩

/-- The fields of a record that is written as a list, in their order. Fields at the end may be
missing. -/
def listFields {ρ : Type} (fields : List (Member ρ)) (first : Bool) (r : ρ) : Reader ρ := fun cs =>
  match fields with
  | [] => do
    let (_, rest) ← closeList cs
    .ok (r, rest)
  | field :: fields => do
    match ← nextElement first cs with
    | none =>
      let (_, rest) ← closeList cs
      .ok (r, rest)
    | some cs =>
      let (r, rest) ← field.read r cs
      listFields fields false r rest

/-- Is there a further entry? The text behind the quote that opens its key, or `none` in front of
the closing brace. -/
def nextKey (first : Bool) : List Char → Except Flaw (Option (List Char)) := fun cs =>
  match skipSpace cs with
  | [] => .error .cut
  | '}' :: _ => .ok none
  | c :: rest =>
    if first then
      if c = '"' then .ok (some rest) else .error .malformed
    else if c = ',' then
      match skipSpace rest with
      | [] => .error .cut
      | '"' :: rest => .ok (some rest)
      | _ :: _ => .error .malformed
    else .error .malformed

/-- The closing brace of an object. -/
def closeObject : Reader Unit := fun cs =>
  match skipSpace cs with
  | [] => .error .cut
  | '}' :: rest => .ok ((), rest)
  | _ :: _ => .error .malformed

/-- The entries of a record behind the opening brace. A known key stands at most once, the value
of an unknown key is skipped. The first text only bounds their number. -/
def objectFields {ρ : Type} (fields : List (Member ρ)) :
    List Char → Bool → List String → ρ → Reader ρ
  | [], _, _, _, _ => .error .cut
  | _ :: bound, first, seen, r, cs => do
    match ← nextKey first cs with
    | none =>
      let (_, rest) ← closeObject cs
      .ok (r, rest)
    | some cs =>
      let (name, rest) ← stringBody cs
      let key := String.ofList name
      match fields.find? (·.key = key) with
      | none =>
        let (_, rest) ← readColon rest
        let (_, rest) ← skipValue rest
        objectFields fields bound false seen r rest
      | some field =>
        if seen.contains key then .error .misshapen
        else
          let (_, rest) ← readColon rest
          let (r, rest) ← field.read r rest
          objectFields fields bound false (key :: seen) r rest

/-- A record: an object with these keys, or a list of the values in the order of the fields. What
is missing stays as it is in `empty`. -/
def readRecord {ρ : Type} (fields : List (Member ρ)) (empty : ρ) : Reader ρ := fun cs =>
  match skipSpace cs with
  | '[' :: rest => listFields fields true empty rest
  | '{' :: rest => objectFields fields ('{' :: rest) true [] empty rest
  | cs => wrongShape cs

/-- A value that must be there. -/
def required {α : Type} : Option α → Except Flaw α
  | some a => .ok a
  | none => .error .misshapen

/-- A whole document: one value, and blanks around it. -/
def readDocument {α : Type} (read : Reader α) (text : String) : Except Flaw α := do
  let (a, rest) ← read text.toList
  match skipSpace rest with
  | [] => .ok a
  | _ :: _ => .error .malformed

end GalvoWeld.Json
