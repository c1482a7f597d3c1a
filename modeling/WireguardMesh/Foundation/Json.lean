import Mathlib.Data.List.Basic
import Mathlib.Data.List.DropRight

/-! # JSON texts

A recogniser for JSON values, as `json.Valid` decides them: each function reads one part of
the grammar from the front of a text and gives the rest. Reading a value inside another one
uses up fuel, of which twice the length of the text is enough. `Json.unquote` gives the text a JSON
string stands for.
-/

namespace Json

variable {s rest : List Char} {c : Char}

/-- White space between tokens. -/
def isSpace (c : Char) : Bool :=
  c ∈ [' ', '\t', '\r', '\n']

def skipSpace (s : List Char) : List Char :=
  s.dropWhile isSpace

def isHexDigit (c : Char) : Bool :=
  c.isDigit || ('a' ≤ c && c ≤ 'f') || ('A' ≤ c && c ≤ 'F')

/-- The rest of a string after its opening quote. -/
def readString : List Char → Option (List Char)
  | [] => none
  | '"' :: s => some s
  | '\\' :: 'u' :: a :: b :: c :: d :: s =>
    if [a, b, c, d].all isHexDigit then readString s else none
  | '\\' :: c :: s =>
    if c ∈ ['"', '\\', '/', 'b', 'f', 'n', 'r', 't'] then readString s else none
  | c :: s => if c < ' ' then none else readString s

def readDigits : List Char → Option (List Char)
  | [] => none
  | c :: s => if c.isDigit then some (s.dropWhile Char.isDigit) else none

/-- Digits without leading zeros. -/
def readInteger : List Char → Option (List Char)
  | '0' :: s => some s
  | s => readDigits s

def readFraction : List Char → Option (List Char)
  | '.' :: s => readDigits s
  | s => some s

def readExponent : List Char → Option (List Char)
  | [] => some []
  | c :: s =>
    if c = 'e' ∨ c = 'E' then
      match s with
      | '+' :: s => readDigits s
      | '-' :: s => readDigits s
      | s => readDigits s
    else some (c :: s)

def readNumber (s : List Char) : Option (List Char) :=
  let s := match s with
    | '-' :: s => s
    | s => s
  (readInteger s).bind fun s => (readFraction s).bind readExponent

/-- What is read next: a value, the members of an object or the elements of an array. -/
inductive Part
  | value
  | members
  | elements

def read : Nat → Part → List Char → Option (List Char)
  | 0, _, _ => none
  | fuel + 1, .value, s =>
    match skipSpace s with
    | '\x7b' :: s =>
      match skipSpace s with
      | '\x7d' :: s => some s
      | s => read fuel .members s
    | '[' :: s =>
      match skipSpace s with
      | ']' :: s => some s
      | s => read fuel .elements s
    | '"' :: s => readString s
    | 't' :: 'r' :: 'u' :: 'e' :: s => some s
    | 'f' :: 'a' :: 'l' :: 's' :: 'e' :: s => some s
    | 'n' :: 'u' :: 'l' :: 'l' :: s => some s
    | s => readNumber s
  | fuel + 1, .members, s =>
    match skipSpace s with
    | '"' :: s =>
      match (readString s).map skipSpace with
      | some (':' :: s) =>
        match (read fuel .value s).map skipSpace with
        | some ('\x7d' :: s) => some s
        | some (',' :: s) => read fuel .members s
        | _ => none
      | _ => none
    | _ => none
  | fuel + 1, .elements, s =>
    match (read fuel .value s).map skipSpace with
    | some (']' :: s) => some s
    | some (',' :: s) => read fuel .elements s
    | _ => none

/-- `json.Valid`: one value, with white space around it. -/
def valid (s : List Char) : Bool :=
  (read (2 * s.length + 2) .value s).map skipSpace = some []

def hexDigit (c : Char) : Nat :=
  if c.isDigit then c.toNat - '0'.toNat
  else if 'a' ≤ c then c.toNat - 'a'.toNat + 10
  else c.toNat - 'A'.toNat + 10

/-- The character after a backslash. -/
def escaped (c : Char) : Option Char :=
  match c with
  | '"' => some '"'
  | '\\' => some '\\'
  | '/' => some '/'
  | 'b' => some '\x08'
  | 'f' => some '\x0c'
  | 'n' => some '\n'
  | 'r' => some '\r'
  | 't' => some '\t'
  | _ => none

/-- The code units of a string up to its closing quote, which ends the text. -/
def readUnits : List Char → Option (List Nat)
  | [] => none
  | ['"'] => some []
  | '\\' :: 'u' :: a :: b :: c :: d :: s =>
    if [a, b, c, d].all isHexDigit then
      (readUnits s).map ([a, b, c, d].foldl (fun n digit => 16 * n + hexDigit digit) 0 :: ·)
    else none
  | '\\' :: c :: s =>
    match escaped c with
    | some e => (readUnits s).map (e.toNat :: ·)
    | none => none
  | c :: s => if c = '"' ∨ c < ' ' then none else (readUnits s).map (c.toNat :: ·)

/-- Code units as characters: a surrogate pair is one character, and a lone surrogate the
replacement character. -/
def decodeUnits : List Nat → List Char
  | [] => []
  | [u] => if 0xD800 ≤ u ∧ u < 0xE000 then ['\uFFFD'] else [Char.ofNat u]
  | u :: v :: units =>
    if 0xD800 ≤ u ∧ u < 0xE000 then
      if u < 0xDC00 ∧ 0xDC00 ≤ v ∧ v < 0xE000 then
        Char.ofNat ((u - 0xD800) * 0x400 + (v - 0xDC00) + 0x10000) :: decodeUnits units
      else '\uFFFD' :: decodeUnits (v :: units)
    else Char.ofNat u :: decodeUnits (v :: units)

/-- `json.Unmarshal` of a text that starts with a quote into a string. -/
def unquote : List Char → Option (List Char)
  | '"' :: s => (readUnits (s.rdropWhile isSpace)).map decodeUnits
  | _ => none

/-- Whether `json.Unmarshal` of a text without surrounding space into a map succeeds: an
object or `null`. -/
def isObject (s : List Char) : Bool :=
  valid s && (s.head? = some '\x7b' || s = "null".toList)

/-! ## The symbols outside strings -/

/-- The symbols of a JSON text outside its strings. -/
def isToken (c : Char) : Bool :=
  isSpace c || c.isDigit || c ∈ "\x7b\x7d[]:,+-.eEtrufalsn".toList

/-- Whether a text is inside a string, and after a backslash. -/
inductive Quoting
  | outside
  | inside
  | escaped
deriving DecidableEq

/-- Runs over a text; none at a symbol that no JSON text has outside its strings. -/
def scan : Quoting → List Char → Option Quoting
  | q, [] => some q
  | .outside, c :: s =>
    if c = '"' then scan .inside s else if isToken c then scan .outside s else none
  | .inside, c :: s =>
    if c = '"' then scan .outside s else if c = '\\' then scan .escaped s else scan .inside s
  | .escaped, _ :: s => scan .inside s

/-- A text that only has such symbols outside its strings, and closes every string. -/
def Tidy (s : List Char) : Prop :=
  scan .outside s = some .outside

theorem scan_append (q : Quoting) (first second : List Char) :
    scan q (first ++ second) = (scan q first).bind fun q => scan q second := by
  induction first generalizing q with
  | nil => rfl
  | cons c first ih =>
    cases q with
    | outside =>
      rw [List.cons_append, scan, scan]
      split
      · exact ih _
      · split
        · exact ih _
        · rfl
    | inside =>
      rw [List.cons_append, scan, scan]
      split
      · exact ih _
      · split <;> exact ih _
    | escaped => exact ih _

theorem tidy_append {first second : List Char} (tidy : Tidy first) :
    Tidy (first ++ second) ↔ Tidy second := by
  rw [Tidy, scan_append, show scan .outside first = some .outside from tidy]
  rfl

theorem tidy_of_tokens (tokens : ∀ c ∈ s, c ≠ '"' ∧ isToken c = true) : Tidy s := by
  induction s with
  | nil => rfl
  | cons c s ih =>
    obtain ⟨plain, token⟩ := tokens c (.head _)
    rw [Tidy, scan, if_neg plain, if_pos token]
    exact ih fun d member => tokens d (.tail _ member)

theorem tokens_of_scan {q : Quoting} {front : List Char} (plain : '"' ∉ front)
    (scanned : scan .outside (front ++ rest) = some q) : ∀ c ∈ front, isToken c = true := by
  induction front with
  | nil => exact nofun
  | cons c front ih =>
    have notQuote : c ≠ '"' := fun same => plain (same ▸ (.head _))
    rw [List.cons_append, scan, if_neg notQuote] at scanned
    split at scanned
    · next token =>
      intro d member
      rcases List.mem_cons.mp member with rfl | member
      · exact token
      · exact ih (fun quote => plain (.tail _ quote)) scanned d member
    · cases scanned

/-- A reader takes tidy symbols off the front of a text. -/
def Takes (s rest : List Char) : Prop :=
  ∃ front, s = front ++ rest ∧ Tidy front

theorem Takes.refl (s : List Char) : Takes s s :=
  ⟨[], rfl, rfl⟩

theorem Takes.trans {t u : List Char} (first : Takes s t) (second : Takes t u) : Takes s u := by
  obtain ⟨front, rfl, tidy⟩ := first
  obtain ⟨front', rfl, tidy'⟩ := second
  exact ⟨front ++ front', by rw [List.append_assoc], (tidy_append tidy).mpr tidy'⟩

theorem Takes.dropWhile {p : Char → Bool} (tokens : ∀ c, p c = true → c ≠ '"' ∧ isToken c = true)
    (s : List Char) : Takes s (s.dropWhile p) := by
  refine ⟨s.takeWhile p, List.takeWhile_append_dropWhile.symm, tidy_of_tokens fun c member => ?_⟩
  exact tokens c (List.mem_takeWhile_imp member)

theorem Takes.skipSpace (s : List Char) : Takes s (skipSpace s) := by
  refine Takes.dropWhile (fun c space => ⟨?_, ?_⟩) s
  · rintro rfl
    exact absurd space (by decide)
  · rw [isToken, space]
    rfl

theorem Takes.cons (plain : c ≠ '"') (token : isToken c = true)
    (takes : Takes s rest) : Takes (c :: s) rest := by
  refine Takes.trans ⟨[c], rfl, tidy_of_tokens ?_⟩ takes
  intro d member
  rw [List.mem_singleton.mp member]
  exact ⟨plain, token⟩

theorem hexDigit_plain (hex : isHexDigit c = true) : c ≠ '"' ∧ c ≠ '\\' := by
  constructor <;> (rintro rfl; exact absurd hex (by decide))

theorem scan_inside (s : List Char) (plain : c ≠ '"' ∧ c ≠ '\\') :
    scan .inside (c :: s) = scan .inside s := by
  rw [scan, if_neg plain.1, if_neg plain.2]

theorem readString_takes (read : readString s = some rest) :
    ∃ front, s = front ++ rest ∧ scan .inside front = some .outside := by
  fun_induction readString s with
  | case1 => cases read
  | case2 s => exact ⟨['"'], by rw [Option.some.inj read]; rfl, rfl⟩
  | case3 a b c d s hex ih =>
    simp only [List.all_cons, Bool.and_eq_true, List.all_nil, and_true] at hex
    obtain ⟨front, rfl, closed⟩ := ih read
    refine ⟨'\\' :: 'u' :: a :: b :: c :: d :: front, rfl, ?_⟩
    rw [← closed]
    exact (scan_inside _ (hexDigit_plain hex.1)).trans <|
      (scan_inside _ (hexDigit_plain hex.2.1)).trans <|
      (scan_inside _ (hexDigit_plain hex.2.2.1)).trans <|
      scan_inside _ (hexDigit_plain hex.2.2.2)
  | case4 => cases read
  | case5 c s notUnicode known ih =>
    obtain ⟨front, rfl, closed⟩ := ih read
    exact ⟨'\\' :: c :: front, rfl, closed⟩
  | case6 => cases read
  | case7 => cases read
  | case8 c s notQuote notUnicode notEscape printable ih =>
    obtain ⟨front, rfl, closed⟩ := ih read
    have plain : c ≠ '\\' := by
      rintro rfl
      cases tail : front ++ rest with
      | nil =>
        rw [tail] at read
        cases read
      | cons d tail' => exact notEscape d tail' rfl tail
    exact ⟨c :: front, rfl, (scan_inside _ ⟨notQuote, plain⟩).trans closed⟩

theorem Takes.readString (read : readString s = some rest) : Takes ('"' :: s) rest := by
  obtain ⟨front, rfl, closed⟩ := readString_takes read
  exact ⟨'"' :: front, rfl, closed⟩

theorem digit_token (digit : c.isDigit = true) : c ≠ '"' ∧ isToken c = true := by
  refine ⟨?_, ?_⟩
  · rintro rfl
    exact absurd digit (by decide)
  · rw [isToken, digit, Bool.or_true]
    rfl

theorem Takes.readDigits (read : readDigits s = some rest) : Takes s rest := by
  cases s with
  | nil => cases read
  | cons c s =>
    rw [Json.readDigits] at read
    split at read
    · next digit =>
      cases read
      exact (Takes.dropWhile (fun _ => digit_token) s).cons (digit_token digit).1
        (digit_token digit).2
    · cases read

theorem Takes.readInteger (read : readInteger s = some rest) : Takes s rest := by
  rw [Json.readInteger.eq_def] at read
  split at read
  · cases read
    exact (Takes.refl _).cons (by decide) (by decide)
  · exact Takes.readDigits read

theorem Takes.readFraction (read : readFraction s = some rest) : Takes s rest := by
  rw [Json.readFraction.eq_def] at read
  split at read
  · exact (Takes.readDigits read).cons (by decide) (by decide)
  · cases read
    exact Takes.refl _

theorem Takes.readExponent (read : readExponent s = some rest) : Takes s rest := by
  cases s with
  | nil => cases read; exact Takes.refl _
  | cons c s =>
    rw [Json.readExponent.eq_def] at read
    dsimp only at read
    split at read
    · next letter =>
      have token : c ≠ '"' ∧ isToken c = true := by
        rcases letter with rfl | rfl <;> exact ⟨by decide, by decide⟩
      refine Takes.cons token.1 token.2 ?_
      split at read
      · exact (Takes.readDigits read).cons (by decide) (by decide)
      · exact (Takes.readDigits read).cons (by decide) (by decide)
      · exact Takes.readDigits read
    · cases read
      exact Takes.refl _

theorem Takes.readNumber (read : readNumber s = some rest) : Takes s rest := by
  obtain ⟨afterInteger, integer, read⟩ := Option.bind_eq_some_iff.mp read
  obtain ⟨afterFraction, fraction, read⟩ := Option.bind_eq_some_iff.mp read
  have unsigned := ((Takes.readInteger integer).trans (Takes.readFraction fraction)).trans
    (Takes.readExponent read)
  revert unsigned
  cases s with
  | nil => exact id
  | cons c s =>
    split
    · next minus =>
      cases minus
      exact fun unsigned => unsigned.cons (by decide) (by decide)
    · exact id

theorem Takes.map_skipSpace {read : Option (List Char)} (takes : ∀ t, read = some t → Takes s t)
    (found : read.map Json.skipSpace = some rest) : Takes s rest := by
  obtain ⟨t, done, rfl⟩ := Option.map_eq_some_iff.mp found
  exact (takes t done).trans (Takes.skipSpace t)

theorem Takes.read {fuel : Nat} {part : Part}
    (done : Json.read fuel part s = some rest) : Takes s rest := by
  induction fuel generalizing part s rest with
  | zero => cases done
  | succ fuel ih =>
    cases part with
    | value =>
      refine (Takes.skipSpace s).trans ?_
      rw [Json.read] at done
      split at done
      -- objects and arrays
      iterate 2
        next tail start =>
          rw [start]
          refine Takes.cons (by decide) (by decide) ((Takes.skipSpace tail).trans ?_)
          split at done
          · next tail' close =>
            cases done
            rw [close]
            exact (Takes.refl _).cons (by decide) (by decide)
          · exact ih done
      · next tail start =>
        rw [start]
        exact Takes.readString done
      · next tail start =>
        cases done
        rw [start]
        exact ⟨"true".toList, rfl, tidy_of_tokens (by simp [isToken])⟩
      · next tail start =>
        cases done
        rw [start]
        exact ⟨"false".toList, rfl, tidy_of_tokens (by simp [isToken])⟩
      · next tail start =>
        cases done
        rw [start]
        exact ⟨"null".toList, rfl, tidy_of_tokens (by simp [isToken])⟩
      · exact Takes.readNumber done
    | members =>
      refine (Takes.skipSpace s).trans ?_
      rw [Json.read] at done
      split at done
      · next tail start =>
        rw [start]
        split at done
        · next tail' colon =>
          refine (Takes.map_skipSpace (fun _ => Takes.readString) colon).trans ?_
          refine Takes.cons (by decide) (by decide) ?_
          split at done
          · next tail'' close =>
            cases done
            exact (Takes.map_skipSpace (fun _ => ih) close).trans
              ((Takes.refl _).cons (by decide) (by decide))
          · next tail'' comma =>
            exact (Takes.map_skipSpace (fun _ => ih) comma).trans
              ((ih done).cons (by decide) (by decide))
          · cases done
        · cases done
      · cases done
    | elements =>
      rw [Json.read] at done
      split at done
      · next tail close =>
        cases done
        exact (Takes.map_skipSpace (fun _ => ih) close).trans
          ((Takes.refl _).cons (by decide) (by decide))
      · next tail comma =>
        exact (Takes.map_skipSpace (fun _ => ih) comma).trans
          ((ih done).cons (by decide) (by decide))
      · cases done

/-- **A JSON text has no other symbols outside its strings.** -/
theorem tidy_of_valid (isValid : valid s = true) : Tidy s := by
  have read := of_decide_eq_true isValid
  obtain ⟨front, same, tidy⟩ := Takes.map_skipSpace (fun _ => Takes.read) read
  rw [same, List.append_nil]
  exact tidy

end Json
