import WireguardMesh.Conn.Camouflage
import WireguardMesh.Foundation.Commented
import WireguardMesh.Foundation.Json

/-! # The transport config

`loadTransportConfigFile` decodes the config that the Master has pushed, or else the local file:
a JSON object with comments, which `stripJSONComments` takes out first, exactly
(`Conn.stripJSONComments_exact`). A pushed config may also come wrapped in a JSON string. Comments
are stripped before the string is decoded, so the wrapped config loads as the config itself does if
and only if that is JSON already (`Conn.wrapped_loads_iff`).
-/

namespace Conn

/-! ## Comments -/

/-- Where `stripJSONComments` is: outside or inside a string, or in one of its two inner loops. -/
inductive Scan
  | text
  | string (escaped : Bool)
  | line
  | block
deriving DecidableEq

/-- The loops of `stripJSONComments` over what is left of the text. -/
def stripFrom : Scan → Bytes → Bytes
  | .string _, [] => []
  | .string true, c :: rest => c :: stripFrom (.string false) rest
  | .string false, c :: rest =>
    if c = '\\'.toUInt8 then c :: stripFrom (.string true) rest
    else if c = '"'.toUInt8 then c :: stripFrom .text rest
    else c :: stripFrom (.string false) rest
  | .text, [] => []
  | .text, [c] => [c]
  | .text, c :: d :: rest =>
    if c = '"'.toUInt8 then c :: stripFrom (.string false) (d :: rest)
    else if c = '/'.toUInt8 ∧ d = '/'.toUInt8 then stripFrom .line rest
    else if c = '/'.toUInt8 ∧ d = '*'.toUInt8 then stripFrom .block rest
    else c :: stripFrom .text (d :: rest)
  | .line, [] => []
  | .line, c :: rest =>
    if c = '\n'.toUInt8 then '\n'.toUInt8 :: stripFrom .text rest else stripFrom .line rest
  | .block, [] => []
  -- the inner loop stops one byte before the end, and that byte goes with the comment
  | .block, [_] => []
  | .block, c :: d :: rest =>
    if c = '*'.toUInt8 ∧ d = '/'.toUInt8 then stripFrom .text rest
    else stripFrom .block (d :: rest)

def stripJSONComments (data : Bytes) : Bytes :=
  stripFrom .text data

/-- The bytes that matter for strings and comments. -/
def jsonMarks : Commented.Marks UInt8 where
  quote := '"'.toUInt8
  escape := '\\'.toUInt8
  slash := '/'.toUInt8
  star := '*'.toUInt8
  newline := '\n'.toUInt8
  quote_ne_escape := by decide
  quote_ne_slash := by decide
  star_ne_slash := by decide
  newline_ne_quote := by decide
  newline_ne_slash := by decide

open Commented

theorem stripFrom_text {a : UInt8} {rest : Bytes} (plain : a ≠ '"'.toUInt8)
    (alone : ¬ OpensComment jsonMarks (a :: rest)) :
    stripFrom .text (a :: rest) = a :: stripFrom .text rest := by
  cases rest with
  | nil => rfl
  | cons b rest =>
    have notLine : ¬ (a = '/'.toUInt8 ∧ b = '/'.toUInt8) := fun both =>
      alone ⟨both.1, .inl both.2⟩
    have notBlock : ¬ (a = '/'.toUInt8 ∧ b = '*'.toUInt8) := fun both =>
      alone ⟨both.1, .inr both.2⟩
    rw [stripFrom, if_neg plain, if_neg notLine, if_neg notBlock]

theorem stripFrom_quote (rest : Bytes) :
    stripFrom .text ('"'.toUInt8 :: rest) = '"'.toUInt8 :: stripFrom (.string false) rest := by
  cases rest with
  | nil => rfl
  | cons b rest => exact if_pos rfl

/-- The loops and the lexer go through a text together; a literal is put out symbol by symbol. -/
theorem stripFrom_lexFrom (mode : Mode UInt8) (s : Bytes) :
    (match mode with
      | .text => stripFrom .text s
      | .literal read => jsonMarks.quote :: (read ++ stripFrom (.string false) s)
      | .line _ => stripFrom .line s
      | .block _ => stripFrom .block s) =
    source jsonMarks (uncomment (lexFrom jsonMarks mode s)) := by
  fun_induction lexFrom jsonMarks mode s with
  | case7 a b rest plain notLine notBlock ih =>
    refine (stripFrom_text plain fun opens => ?_).trans (congrArg (a :: ·) ih)
    exact opens.2.elim (fun slash => notLine ⟨opens.1, slash⟩) fun star => notBlock ⟨opens.1, star⟩
  | case11 read b rest ih =>
    have closes : stripFrom (.string false) (jsonMarks.quote :: b :: rest) =
      jsonMarks.quote :: stripFrom .text (b :: rest) := rfl
    simp_all [source, uncomment, Piece.isComment, Piece.source]
  -- elsewhere both take the branch of the same symbol
  | _ => simp_all [stripFrom, source, uncomment, Piece.isComment, Piece.source, jsonMarks]

theorem stripJSONComments_of_lexes {data : Bytes} {pieces : List (Piece UInt8)}
    (lexed : Lexes jsonMarks data pieces) :
    stripJSONComments data = source jsonMarks (uncomment pieces) := by
  rw [← lexed.lex_eq]
  exact stripFrom_lexFrom .text data

theorem stripJSONComments_of_free {data : Bytes} (free : Free jsonMarks data) :
    stripJSONComments data = data := by
  obtain ⟨pieces, lexed, plain⟩ := free
  rw [stripJSONComments_of_lexes lexed, uncomment_of_free plain, lexed.source_eq]

/-- **Comment stripping is exact.** A text falls into pieces in one way, and what is put out are
the pieces that are not comments, in order; a line comment ends before its newline. They are also
the pieces of the output, in which no two symbols outside strings open a comment. A text without
comments stays, and so does the output. -/
theorem stripJSONComments_exact (data : Bytes) : ∃ pieces, Lexes jsonMarks data pieces ∧
    (∀ other, Lexes jsonMarks data other → other = pieces) ∧
    stripJSONComments data = source jsonMarks (uncomment pieces) ∧
    Lexes jsonMarks (stripJSONComments data) (uncomment pieces) ∧
    (∀ before a after, uncomment pieces = before ++ .text a :: after →
      ¬ OpensComment jsonMarks (a :: source jsonMarks after)) ∧
    ((∀ piece ∈ pieces, piece.isComment = false) → stripJSONComments data = data) ∧
    stripJSONComments (stripJSONComments data) = stripJSONComments data := by
  obtain ⟨pieces, lexed⟩ : ∃ pieces, Lexes jsonMarks data pieces := ⟨_, lexes_iff.mpr rfl⟩
  have output := stripJSONComments_of_lexes lexed
  have outputLexed : Lexes jsonMarks (stripJSONComments data) (uncomment pieces) := by
    rw [output]
    exact lexed.uncomment
  refine ⟨pieces, lexed, ?_, output, outputLexed, ?_, ?_, ?_⟩
  · intro other lexed'
    rw [← lexed.lex_eq, ← lexed'.lex_eq]
  · intro before a after split
    exact outputLexed.not_opensComment split
  · intro plain
    exact stripJSONComments_of_free ⟨pieces, lexed, plain⟩
  · refine stripJSONComments_of_free ?_
    rw [output]
    exact lexed.free

/-! ## Loading -/

structure TcpConfigFile where
  dialTimeout : Bytes
  reconnectInitialBackoff : Bytes
  reconnectMaxBackoff : Bytes
  rxIdleTimeout : Bytes
  allowOutboundDial : Option Bool
deriving DecidableEq

structure McConfigFile where
  enabled : Option Bool
  handshakeTimeout : Bytes
  deepCamouflage : Option Bool
  loginUsername : Bytes
  loginPluginChannel : Bytes
  loginPluginSecret : Bytes
  rejectMessage : Bytes
deriving DecidableEq

structure CamoConfigFile where
  profile : Bytes
  deep : Option Bool
  secure : Option Bool
  handshakeTimeout : Bytes
  loginUsername : Bytes
  loginPluginChannel : Bytes
  loginPluginSecret : Bytes
  rejectMessage : Bytes
  serverName : Bytes
deriving DecidableEq

structure TransportConfigFile where
  tcp : TcpConfigFile
  mc : McConfigFile
  camouflage : CamoConfigFile
deriving DecidableEq

/-- What loading a transport config takes from the standard library. -/
structure ConfigLibrary where
  /-- `json.Unmarshal` into a `transportConfigFile`, or its error. -/
  unmarshal : Bytes → Except String TransportConfigFile
  /-- `json.Unmarshal` into a string. -/
  unmarshalString : Bytes → Option Bytes
  /-- `time.ParseDuration`, in nanoseconds. -/
  parseDuration : Bytes → Option Int
  /-- `strings.ToLower`. -/
  toLower : Bytes → Bytes

/-- The white space of `unicode.IsSpace`, in UTF-8. -/
def spaces : List Bytes :=
  (['\t', '\n', '\x0b', '\x0c', '\r', ' ', '\u0085', '\u00a0', '\u1680', '\u2000', '\u2001',
    '\u2002', '\u2003', '\u2004', '\u2005', '\u2006', '\u2007', '\u2008', '\u2009', '\u200a',
    '\u2028', '\u2029', '\u202f', '\u205f', '\u3000'] : List Char).map String.utf8EncodeChar

def trimLeft : Nat → Bytes → Bytes
  | 0, s => s
  | fuel + 1, s =>
    match spaces.find? fun space => space.isPrefixOf s with
    | some space => trimLeft fuel (s.drop space.length)
    | none => s

def trimRight : Nat → Bytes → Bytes
  | 0, s => s
  | fuel + 1, s =>
    match spaces.find? fun space => space.isSuffixOf s with
    | some space => trimRight fuel (s.take (s.length - space.length))
    | none => s

/-- `bytes.TrimSpace` and `strings.TrimSpace`. -/
def trimSpaceBytes (s : Bytes) : Bytes :=
  trimRight s.length (trimLeft s.length s)

/-- The local transport config, as `os.ReadFile` finds it. -/
inductive LocalFile
  | missing
  | unreadable (cause : String)
  | found (data : Bytes)

/-- The errors of `loadTransportConfigFile`. -/
inductive TransportError
  /-- `parse remote transport config: %w` -/
  | parseRemote (cause : String)
  /-- `read transport config %q: %w` -/
  | readFile (cause : String)
  /-- `parse transport config %q: %w` -/
  | parseFile (cause : String)
deriving DecidableEq

variable (lib : ConfigLibrary)

/-- A pushed config without its comments, out of the JSON string it may be wrapped in. -/
def unwrapped (override : Bytes) : Bytes :=
  let data := trimSpaceBytes (stripJSONComments override)
  if data.head? = some '"'.toUInt8 then (lib.unmarshalString data).getD data else data

/-- `loadTransportConfigFile`, with the pushed config, or none when that is empty. -/
def loadTransportConfigFile (file : LocalFile) (override : Bytes) :
    Except TransportError TransportConfigFile :=
  if override ≠ [] then (lib.unmarshal (unwrapped lib override)).mapError .parseRemote
  else match file with
  | .missing => .ok ⟨⟨[], [], [], [], none⟩, ⟨none, [], none, [], [], [], []⟩,
      ⟨[], none, none, [], [], [], [], [], []⟩⟩
  | .unreadable cause => .error (.readFile cause)
  | .found data => (lib.unmarshal (stripJSONComments data)).mapError .parseFile

/-! ## Wrapped configs -/

/-- A byte as the character of its number. JSON's own symbols are ASCII, and strings may have any
byte from the blank on. -/
def latin (b : UInt8) : Char :=
  Char.ofNat b.toNat

/-- What is assumed of `json.Unmarshal`: it takes JSON texts only, and JSON's white space around a
text does not matter. -/
structure ConfigLibrary.Lawful : Prop where
  valid : ∀ {data : Bytes} {cfg : TransportConfigFile}, lib.unmarshal data = .ok cfg →
    Json.valid (data.map latin) = true
  validString : ∀ {data text : Bytes}, lib.unmarshalString data = some text →
    Json.valid (data.map latin) = true
  space : ∀ {lead data trail : Bytes} {cfg : TransportConfigFile},
    (∀ b ∈ lead ++ trail, Json.isSpace (latin b) = true) → lib.unmarshal data = .ok cfg →
    lib.unmarshal (lead ++ data ++ trail) = .ok cfg

/-- A text encoded as a JSON string. -/
structure ConfigLibrary.Encodes (wrapped text : Bytes) : Prop where
  opened : wrapped.head? = some '"'.toUInt8
  closed : wrapped.getLast? = some '"'.toUInt8
  decoded : lib.unmarshalString wrapped = some text

/-- Around the text there is no other white space than that of JSON. -/
def OuterSpace (text : Bytes) : Prop :=
  ∃ lead trail, text = lead ++ trimSpaceBytes text ++ trail ∧
    ∀ b ∈ lead ++ trail, Json.isSpace (latin b) = true

variable {lib}

theorem latin_injective : Function.Injective latin := by
  intro a b same
  have size : ∀ b : UInt8, (latin b).toNat = b.toNat := by
    intro b
    have small := b.toNat_lt
    have valid : b.toNat.isValidChar := .inl (by omega)
    rw [latin, Char.ofNat, dif_pos valid]
    rfl
  apply UInt8.toNat_inj.mp
  rw [← size a, ← size b, same]

theorem stripFrom_of_scan {q q' : Json.Quoting} {s : Bytes}
    (scanned : Json.scan q (s.map latin) = some q') : stripFrom (match q with
      | .outside => .text
      | .inside => .string false
      | .escaped => .string true) s = s := by
  induction s generalizing q with
  | nil => cases q <;> rfl
  | cons c s ih =>
    cases q with
    | outside =>
      rw [List.map_cons, Json.scan] at scanned
      split at scanned
      · next quote =>
        obtain rfl : c = '"'.toUInt8 := latin_injective quote
        rw [stripFrom_quote, ih scanned]
      · next plain =>
        split at scanned
        · next token =>
          have notQuote : c ≠ '"'.toUInt8 := fun same => plain (by rw [same]; rfl)
          have notSlash : c ≠ '/'.toUInt8 := by
            rintro rfl
            exact absurd token (by decide)
          rw [stripFrom_text notQuote fun opens => notSlash opens.slash]
          rw [ih scanned]
        · cases scanned
    | inside =>
      rw [List.map_cons, Json.scan] at scanned
      rw [stripFrom]
      split at scanned
      · next quote =>
        obtain rfl : c = '"'.toUInt8 := latin_injective quote
        rw [if_neg (by decide), if_pos rfl, ih scanned]
      · next plain =>
        have notQuote : c ≠ '"'.toUInt8 := fun same => plain (by rw [same]; rfl)
        split at scanned
        · next escape =>
          obtain rfl : c = '\\'.toUInt8 := latin_injective escape
          rw [if_pos rfl, ih scanned]
        · next plain' =>
          have notEscape : c ≠ '\\'.toUInt8 := fun same => plain' (by rw [same]; rfl)
          rw [if_neg notEscape, if_neg notQuote, ih scanned]
    | escaped =>
      rw [stripFrom, ih (q := .inside) scanned]

theorem stripJSONComments_of_valid {data : Bytes} (valid : Json.valid (data.map latin) = true) :
    stripJSONComments data = data :=
  stripFrom_of_scan (Json.tidy_of_valid valid)

theorem free_stripJSONComments (data : Bytes) : Free jsonMarks (stripJSONComments data) := by
  have lexed : Lexes jsonMarks data (lex jsonMarks data) := lexes_iff.mpr rfl
  rw [stripJSONComments_of_lexes lexed]
  exact lexed.free

/-! ### White space around a text -/

theorem exists_trimLeft (fuel : Nat) (s : Bytes) :
    ∃ lead, s = lead ++ trimLeft fuel s ∧ ∀ b ∈ lead, b ∈ spaces.flatten := by
  induction fuel generalizing s with
  | zero => exact ⟨[], rfl, nofun⟩
  | succ fuel ih =>
    rw [trimLeft]
    split
    · next space found =>
      obtain ⟨lead, same, inside⟩ := ih (s.drop space.length)
      have start : space <+: s := by simpa using List.find?_some found
      refine ⟨space ++ lead, ?_, ?_⟩
      · rw [List.append_assoc, ← same]
        exact (List.prefix_iff_eq_append.mp start).symm
      · intro b member
        rcases List.mem_append.mp member with member | member
        · exact List.mem_flatten_of_mem (List.mem_of_find?_eq_some found) member
        · exact inside b member
    · exact ⟨[], rfl, nofun⟩

theorem exists_trimRight (fuel : Nat) (s : Bytes) :
    ∃ trail, s = trimRight fuel s ++ trail ∧ ∀ b ∈ trail, b ∈ spaces.flatten := by
  induction fuel generalizing s with
  | zero => exact ⟨[], (List.append_nil s).symm, nofun⟩
  | succ fuel ih =>
    rw [trimRight]
    split
    · next space found =>
      obtain ⟨trail, same, inside⟩ := ih (s.take (s.length - space.length))
      have finish : space <:+ s := by simpa using List.find?_some found
      refine ⟨trail ++ space, ?_, ?_⟩
      · rw [← List.append_assoc, ← same]
        exact (List.suffix_iff_eq_append.mp finish).symm
      · intro b member
        rcases List.mem_append.mp member with member | member
        · exact inside b member
        · exact List.mem_flatten_of_mem (List.mem_of_find?_eq_some found) member
    · exact ⟨[], (List.append_nil s).symm, nofun⟩

theorem exists_trimSpace (s : Bytes) : ∃ lead trail, s = lead ++ trimSpaceBytes s ++ trail ∧
    ∀ b ∈ lead ++ trail, b ∈ spaces.flatten := by
  obtain ⟨lead, front, leading⟩ := exists_trimLeft s.length s
  obtain ⟨trail, back, trailing⟩ := exists_trimRight s.length (trimLeft s.length s)
  refine ⟨lead, trail, ?_, fun b member => ?_⟩
  · rw [List.append_assoc, trimSpaceBytes, ← back, ← front]
  · exact (List.mem_append.mp member).elim (leading b) (trailing b)

theorem trimSpace_of_quoted {s : Bytes} (opened : s.head? = some '"'.toUInt8)
    (closed : s.getLast? = some '"'.toUInt8) : trimSpaceBytes s = s := by
  have ends : ∀ space ∈ spaces, space ≠ [] ∧ space.head? ≠ some '"'.toUInt8 ∧
      space.getLast? ≠ some '"'.toUInt8 := by
    decide
  have front : ∀ fuel, trimLeft fuel s = s := by
    intro fuel
    cases fuel with
    | zero => rfl
    | succ fuel =>
      rw [trimLeft, List.find?_eq_none.mpr]
      intro space member start
      obtain ⟨nonempty, head, -⟩ := ends space member
      obtain ⟨rest, rfl⟩ := List.isPrefixOf_iff_prefix.mp start
      rw [List.head?_append_of_ne_nil _ nonempty] at opened
      exact head opened
  have back : ∀ fuel, trimRight fuel s = s := by
    intro fuel
    cases fuel with
    | zero => rfl
    | succ fuel =>
      rw [trimRight, List.find?_eq_none.mpr]
      intro space member finish
      obtain ⟨nonempty, -, last⟩ := ends space member
      obtain ⟨rest, rfl⟩ := List.isSuffixOf_iff_suffix.mp finish
      rw [List.getLast?_append_of_ne_nil _ nonempty] at closed
      exact last closed
  rw [trimSpaceBytes, front, back]

theorem jsonSpace_of_scan {q : Json.Quoting} {space : Bytes} {rest : List Char}
    (inside : ∀ b ∈ space, b ∈ spaces.flatten)
    (scanned : Json.scan .outside (space.map latin ++ rest) = some q) :
    ∀ b ∈ space, Json.isSpace (latin b) = true := by
  have kinds : ∀ b ∈ spaces.flatten, latin b ≠ '"' ∧
      (Json.isToken (latin b) = true → Json.isSpace (latin b) = true) := by
    decide +kernel
  have plain : '"' ∉ space.map latin := by
    intro member
    obtain ⟨b, member, same⟩ := List.mem_map.mp member
    exact (kinds b (inside b member)).1 same
  intro b member
  exact (kinds b (inside b member)).2
    (Json.tokens_of_scan plain scanned _ (List.mem_map_of_mem member))

theorem tidy_of_space {space : Bytes} (json : ∀ b ∈ space, Json.isSpace (latin b) = true) :
    Json.Tidy (space.map latin) := by
  refine Json.tidy_of_tokens fun c member => ?_
  obtain ⟨b, known, rfl⟩ := List.mem_map.mp member
  have space := json b known
  refine ⟨fun quote => ?_, ?_⟩
  · rw [quote] at space
    exact absurd space (by decide)
  · rw [Json.isToken, space]
    rfl

/-- A JSON text with a JSON text inside its white space has no other white space around that. -/
theorem outerSpace_of_valid {text : Bytes} (valid : Json.valid (text.map latin) = true)
    (trimmed : Json.valid ((trimSpaceBytes text).map latin) = true) : OuterSpace text := by
  obtain ⟨lead, trail, same, inside⟩ := exists_trimSpace text
  have tidy := Json.tidy_of_valid valid
  rw [same, List.map_append, List.map_append, List.append_assoc] at tidy
  have leading := jsonSpace_of_scan (fun b member => inside b (List.mem_append_left _ member)) tidy
  have rest := (Json.tidy_append (Json.tidy_of_valid trimmed)).mp
    ((Json.tidy_append (tidy_of_space leading)).mp tidy)
  rw [Json.Tidy, ← List.append_nil (trail.map latin)] at rest
  have trailing := jsonSpace_of_scan (fun b member => inside b (List.mem_append_right _ member)) rest
  exact ⟨lead, trail, same, fun b member =>
    (List.mem_append.mp member).elim (leading b) (trailing b)⟩

theorem unwrapped_of_encodes (lawful : lib.Lawful) {wrapped text : Bytes}
    (encoded : lib.Encodes wrapped text) : unwrapped lib wrapped = text := by
  rw [unwrapped, stripJSONComments_of_valid (lawful.validString encoded.decoded),
    trimSpace_of_quoted encoded.opened encoded.closed, if_pos encoded.opened, encoded.decoded]
  rfl

theorem load_of_pushed {file : LocalFile} {override : Bytes} (pushed : override ≠ []) :
    loadTransportConfigFile lib file override =
      (lib.unmarshal (unwrapped lib override)).mapError .parseRemote :=
  if_pos pushed

/-- **When wrapping does not change a config.** A config that loads as an object loads the same
when pushed as a JSON string if and only if it has no comments, and no other white space around it
than that of JSON. -/
theorem wrapped_loads_iff (lawful : lib.Lawful) {file : LocalFile} {text wrapped : Bytes}
    {cfg : TransportConfigFile} (encoded : lib.Encodes wrapped text)
    (object : (trimSpaceBytes (stripJSONComments text)).head? = some '\x7b'.toUInt8)
    (loads : loadTransportConfigFile lib file text = .ok cfg) :
    loadTransportConfigFile lib file wrapped = loadTransportConfigFile lib file text ↔
      Free jsonMarks text ∧ OuterSpace text := by
  have pushed : text ≠ [] := by
    rintro rfl
    exact absurd object (by decide)
  have wrappedPushed : wrapped ≠ [] := by
    rintro rfl
    exact absurd encoded.opened (by decide)
  rw [loads, load_of_pushed wrappedPushed, unwrapped_of_encodes lawful encoded,
    Effect.except_mapError_eq_ok]
  rw [load_of_pushed pushed, unwrapped, object, if_neg (by decide),
    Effect.except_mapError_eq_ok] at loads
  constructor
  · intro same
    have valid := lawful.valid same
    have stripped := stripJSONComments_of_valid valid
    rw [stripped] at loads
    refine ⟨?_, outerSpace_of_valid valid (lawful.valid loads)⟩
    rw [← stripped]
    exact free_stripJSONComments text
  · rintro ⟨free, lead, trail, same, json⟩
    rw [stripJSONComments_of_free free] at loads
    rw [same]
    exact lawful.space json loads

/-! ### Empty objects -/

/-- The config that an empty object decodes to. -/
def noConfig : TransportConfigFile :=
  ⟨⟨[], [], [], [], none⟩, ⟨none, [], none, [], [], [], []⟩, ⟨[], none, none, [], [], [], [], [], []⟩⟩

/-- An empty object with a comment, and the JSON strings for it and for an empty object. -/
def commentedObject : Bytes := ascii "\x7b\x7d // all defaults"
def wrappedCommented : Bytes := ascii "\"\x7b\x7d // all defaults\""
def wrappedObject : Bytes := ascii "\"\x7b\x7d\""

/-- Decodes empty objects, and the two strings above. -/
def objectLibrary : ConfigLibrary where
  unmarshal data :=
    if data.filter (fun b => !Json.isSpace (latin b)) = ascii "\x7b\x7d" then .ok noConfig
    else .error "invalid character"
  unmarshalString data :=
    if data = wrappedCommented then some commentedObject
    else if data = wrappedObject then some (ascii "\x7b\x7d")
    else none
  parseDuration _ := none
  toLower := id

theorem valid_emptyObject {lead mid trail : List Char} (leading : ∀ c ∈ lead, Json.isSpace c = true)
    (middle : ∀ c ∈ mid, Json.isSpace c = true) (trailing : ∀ c ∈ trail, Json.isSpace c = true) :
    Json.valid (lead ++ '\x7b' :: (mid ++ '\x7d' :: trail)) = true := by
  have skip : ∀ {space rest : List Char} {c : Char}, (∀ c ∈ space, Json.isSpace c = true) →
      Json.isSpace c = false → Json.skipSpace (space ++ c :: rest) = c :: rest := by
    intro space rest c inside plain
    rw [Json.skipSpace, List.dropWhile_append_of_pos inside, List.dropWhile_cons_of_neg]
    rw [plain]
    exact Bool.false_ne_true
  have inner : Json.skipSpace (mid ++ '\x7d' :: trail) = '\x7d' :: trail :=
    skip middle (by decide)
  rw [Json.valid, Json.read, skip leading (by decide)]
  refine decide_eq_true ?_
  simp only [inner, Option.map_some]
  exact congrArg some (List.dropWhile_eq_nil_iff.mpr trailing)

theorem objectLibrary_lawful : objectLibrary.Lawful where
  valid := by
    intro data cfg decoded
    have symbols : data.filter (fun b => !Json.isSpace (latin b)) = ascii "\x7b\x7d" := by
      by_contra other
      rw [objectLibrary] at decoded
      dsimp only at decoded
      rw [if_neg other] at decoded
      cases decoded
    obtain ⟨lead, rest, rfl, leading, -, symbols⟩ := List.filter_eq_cons_iff.mp symbols
    obtain ⟨mid, trail, rfl, middle, -, symbols⟩ := List.filter_eq_cons_iff.mp symbols
    have spaces : ∀ {part : Bytes}, (∀ b ∈ part, ¬ (!Json.isSpace (latin b)) = true) →
        ∀ c ∈ part.map latin, Json.isSpace c = true := by
      intro part inside c member
      obtain ⟨b, known, rfl⟩ := List.mem_map.mp member
      simpa using inside b known
    rw [List.map_append, List.map_cons, List.map_append, List.map_cons]
    exact valid_emptyObject (spaces leading) (spaces middle) (spaces (List.filter_eq_nil_iff.mp symbols))
  validString := by
    intro data text decoded
    rw [objectLibrary] at decoded
    dsimp only at decoded
    split at decoded
    · next same =>
      rw [same]
      decide +kernel
    · split at decoded
      · next same =>
        rw [same]
        decide +kernel
      · cases decoded
  space := by
    intro lead data trail cfg json decoded
    rw [← decoded]
    have same : (lead ++ data ++ trail).filter (fun b => !Json.isSpace (latin b)) =
        data.filter fun b => !Json.isSpace (latin b) := by
      have nothing : ∀ {part : Bytes}, (∀ b ∈ part, Json.isSpace (latin b) = true) →
          part.filter (fun b => !Json.isSpace (latin b)) = [] := by
        intro part inside
        refine List.filter_eq_nil_iff.mpr fun b member => ?_
        rw [inside b member]
        exact Bool.false_ne_true
      rw [List.filter_append, List.filter_append,
        nothing fun b member => json b (List.mem_append_left _ member),
        nothing fun b member => json b (List.mem_append_right _ member)]
      exact List.append_nil _
    simp only [objectLibrary, same]

/-- An empty object loads from a JSON string as well. -/
theorem emptyObject_wrapped : loadTransportConfigFile objectLibrary .missing wrappedObject =
    loadTransportConfigFile objectLibrary .missing (ascii "\x7b\x7d") := by
  refine (wrapped_loads_iff objectLibrary_lawful ⟨by decide, by decide, by decide +kernel⟩
    (by decide +kernel) (by decide +kernel : _ = Except.ok noConfig)).mpr ⟨?_, ?_⟩
  · exact ⟨lex jsonMarks (ascii "\x7b\x7d"), lexes_iff.mpr rfl, by decide +kernel⟩
  · exact ⟨[], [], by decide +kernel, nofun⟩

/-- With a comment, an empty object loads by itself, but not from a JSON string. -/
theorem commentedObject_wrapped : objectLibrary.Lawful ∧
    objectLibrary.Encodes wrappedCommented commentedObject ∧
    loadTransportConfigFile objectLibrary .missing commentedObject = .ok noConfig ∧
    loadTransportConfigFile objectLibrary .missing wrappedCommented =
      .error (.parseRemote "invalid character") :=
  ⟨objectLibrary_lawful, ⟨by decide, by decide, by decide +kernel⟩, by decide +kernel,
    by decide +kernel⟩

end Conn
