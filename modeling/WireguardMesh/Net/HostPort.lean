import WireguardMesh.Net.Prefix

/-! # Host and port texts

`net.SplitHostPort`, `net.JoinHostPort` and `netip.ParseAddrPort`. The first two treat any
text as a host; the last one requires an IP address, in brackets exactly when it is IPv6.
So it reads what `JoinHostPort` builds from a literal address (`Net.parseAddrPort_joinHostPort`).
-/

namespace Net

open GoText

/-- `net.SplitHostPort`: the port follows the last colon; a host in brackets ends right before it,
and one without has no colon. -/
def splitHostPort (s : List Char) : Option (List Char × List Char) :=
  match splitLast ':' s with
  | none => none
  | some (before, port) =>
    if s.head? = some '[' then
      match splitFirst ']' s with
      | none => none
      | some (inside, after) =>
        if before = inside ++ [']'] ∧ '[' ∉ s.drop 1 ∧ ']' ∉ after then
          some (inside.drop 1, port)
        else none
    else if ':' ∈ before ∨ '[' ∈ s ∨ ']' ∈ s then none
    else some (before, port)

/-- `net.JoinHostPort`: a host with a colon is put in brackets. -/
def joinHostPort (host port : List Char) : List Char :=
  if ':' ∈ host then '[' :: host ++ ']' :: ':' :: port else host ++ ':' :: port

/-- `netip.splitAddrPort`: the address text, the port text and whether there were brackets. -/
def splitAddrPort (s : List Char) : Option (List Char × List Char × Bool) :=
  match splitLast ':' s with
  | none => none
  | some (ip, port) =>
    if ip = [] ∨ port = [] then none
    else if ip.head? = some '[' then
      if ip.length < 2 ∨ ip.getLast? ≠ some ']' then none
      else some ((ip.drop 1).dropLast, port, true)
    else some (ip, port, false)

/-- `netip.ParseAddrPort`. -/
def parseAddrPort (s : List Char) : Option (Addr × Nat) :=
  match splitAddrPort s with
  | none => none
  | some (ip, port, v6) =>
    match parseUint port 16 with
    | none => none
    | some port =>
      match parseAddr ip with
      | none => none
      | some addr =>
        if (v6 = true ∧ addr.is4 = true) ∨ (v6 = false ∧ addr.is6 = true) then none
        else some (addr, port)

/-! ## Literal addresses -/

theorem parseAddr_head {c : Char} (other : hexValue c = none) (notColon : c ≠ ':')
    (s : List Char) : parseAddr (c :: s) = none := by
  have noDigit : c.isDigit = false := by
    cases digit : c.isDigit with
    | false => rfl
    | true => exact (hexValue_of_isDigit digit other).elim
  have noBytes (t : List Char) : parseIPv6Bytes (c :: t) = none := by
    have noGroup : parseHexGroup (c :: t) 0 0 = some (0, 0, c :: t) := by
      rw [parseHexGroup, other]
    rw [parseIPv6Bytes_of_ne_colon fun _ same => notColon (List.cons.inj same).1, parseIPv6Groups,
      noGroup]
    rfl
  unfold parseAddr
  split
  · have noFields : parseIPv4Fields (c :: s) 0 0 [] = none := by
      simp [parseIPv4Fields, noDigit]
    rw [parseIPv4, noFields]
    rfl
  · unfold parseIPv6
    split
    · rw [noBytes]
      rfl
    · next text zone cut =>
      obtain ⟨shape, _⟩ := splitFirst_eq_some.mp cut
      cases text with
      | nil =>
        split <;> rfl
      | cons d text =>
        obtain ⟨rfl, _⟩ := List.cons.inj shape
        rw [noBytes]
        split <;> rfl
  · rfl

theorem parsePrefix_head {c : Char} (other : hexValue c = none) (notColon : c ≠ ':')
    (s : List Char) : parsePrefix (c :: s) = none := by
  rw [parsePrefix]
  cases cut : splitLast '/' (c :: s) with
  | none => rfl
  | some parts =>
    obtain ⟨addrText, bitsText⟩ := parts
    obtain ⟨whole, _⟩ := splitLast_eq_some.mp cut
    cases addrText with
    | nil => rfl
    | cons d addrText =>
      cases (List.cons.inj whole).1
      simp only [parseAddr_head other notColon]

theorem isSpace_of_hexValue {c : Char} (digit : hexValue c ≠ none) : isSpace c = false := by
  cases space : isSpace c with
  | false => rfl
  | true =>
    refine (digit ?_).elim
    rw [isSpace, Bool.or_eq_true, decide_eq_true_eq, Bool.and_eq_true, decide_eq_true_eq,
      decide_eq_true_eq] at space
    rcases space with listed | ⟨low, _⟩
    · have spaces : ∀ d ∈ ['\t', '\n', '\x0b', '\x0c', '\r', ' ', '\u0085', '\u00a0', '\u1680',
          '\u2028', '\u2029', '\u202f', '\u205f', '\u3000'], hexValue d = none := by
        simp [hexValue]
      exact spaces c listed
    · have nine : ¬ c ≤ '9' := fun below => absurd (Char.le_trans low below) (by decide)
      have lower : ¬ c ≤ 'f' := fun below => absurd (Char.le_trans low below) (by decide)
      have upper : ¬ c ≤ 'F' := fun below => absurd (Char.le_trans low below) (by decide)
      simp [hexValue, nine, lower, upper]

theorem trimSpace_of_parsePrefix {s : List Char} {p : Prefix} (parsed : parsePrefix s = some p) :
    trimSpace s = s := by
  refine trimFunc_eq_self_iff.mpr ⟨fun c first => ?_, fun c last => ?_⟩
  · obtain ⟨rest, rfl⟩ := List.head?_eq_some_iff.mp first
    by_cases colon : c = ':'
    · subst colon
      decide
    · refine isSpace_of_hexValue fun other => ?_
      rw [parsePrefix_head other colon] at parsed
      cases parsed
  · obtain ⟨_, digits, _, _, cut, _, _, nonempty, numeric, _⟩ := parsePrefix_eq_some parsed
    obtain ⟨rfl, _⟩ := splitLast_eq_some.mp cut
    rw [List.append_cons, List.getLast?_append_of_ne_nil _ nonempty] at last
    exact isSpace_of_isDigit (List.all_eq_true.mp numeric c (List.mem_of_getLast? last))

theorem parseAddr_string4_colon (a : BitVec 32) (port : List Char) :
    parseAddr (string4 a ++ ':' :: port) = none := by
  have found : (string4 a ++ ':' :: port).find? (fun c => c = '.' ∨ c = ':' ∨ c = '%') =
      some '.' := by
    rw [List.find?_append, find?_string4]
    rfl
  rw [parseAddr, found]
  cases dotted : parseIPv4 (string4 a ++ ':' :: port) with
  | none => rfl
  | some b =>
    have colon : ':' ∈ string4 b := by
      rw [← parseIPv4_eq_some.mp dotted]
      exact List.mem_append_right _ (.head _)
    exact (not_mem_string4 b (by decide) (by decide) colon).elim

/-- What `ParseAddrPort` accepts: a literal address, in brackets exactly when it has colons,
and a port. -/
theorem parseAddrPort_isSome {s : List Char} :
    (parseAddrPort s).isSome = true ↔ ∃ ip port v6, splitAddrPort s = some (ip, port, v6) ∧
      (parseUint port 16).isSome = true ∧ (parseAddr ip).isSome = true ∧
        (v6 = true ↔ ':' ∈ ip) := by
  unfold parseAddrPort
  split
  · next none => simp [none]
  · next ip port v6 cut =>
    have only : (∃ ip' port' v6', splitAddrPort s = some (ip', port', v6') ∧
        (parseUint port' 16).isSome = true ∧ (parseAddr ip').isSome = true ∧
          (v6' = true ↔ ':' ∈ ip')) ↔
        (parseUint port 16).isSome = true ∧ (parseAddr ip).isSome = true ∧
          (v6 = true ↔ ':' ∈ ip) := by
      rw [cut]
      constructor
      · rintro ⟨_, _, _, same, rest⟩
        cases same
        exact rest
      · exact fun rest => ⟨ip, port, v6, rfl, rest⟩
    rw [only]
    split
    · next bad => simp [bad]
    · next number read =>
      rw [read]
      split
      · next bad => simp [bad]
      · next addr parsed =>
        rw [parsed]
        rcases parseAddr_family parsed with ⟨six, four, colon⟩ | ⟨six, four, colon⟩ <;>
          cases v6 <;> simp [six, four, colon]

variable {host port : List Char} (clean : ':' ∉ port)

include clean

theorem splitAddrPort_brackets :
    splitAddrPort ('[' :: host ++ ']' :: ':' :: port) =
      if port = [] then none else some (host, port, true) := by
  have cut : splitLast ':' ('[' :: host ++ ']' :: ':' :: port) =
      some ('[' :: (host ++ [']']), port) :=
    splitLast_eq_some.mpr ⟨by simp,
      clean⟩
  have last : ('[' :: (host ++ [']'])).getLast? = some ']' := by
    rw [← List.cons_append, List.getLast?_concat]
  have long : ¬ host.length + 1 + 1 < 2 := by omega
  rw [splitAddrPort, cut]
  simp [last, long]

theorem splitAddrPort_plain (open' : host.head? ≠ some '[') : splitAddrPort (host ++ ':' :: port) =
      if host = [] ∨ port = [] then none else some (host, port, false) := by
  simp only [splitAddrPort, splitLast_eq_some.mpr ⟨rfl, clean⟩, if_neg open']

/-- A bracketed host is accepted when it is a literal address with colons. -/
theorem parseAddrPort_brackets :
    (parseAddrPort ('[' :: host ++ ']' :: ':' :: port)).isSome = true ↔
      (parseAddr host).isSome = true ∧ (parseUint port 16).isSome = true ∧ ':' ∈ host := by
  rw [parseAddrPort_isSome, splitAddrPort_brackets clean]
  constructor
  · rintro ⟨_, _, _, same, number, literal, family⟩
    split at same
    · cases same
    · cases same
      exact ⟨literal, number, family.mp rfl⟩
  · rintro ⟨literal, number, colon⟩
    have filled : port ≠ [] := by
      rintro rfl
      cases number
    rw [if_neg filled]
    exact ⟨host, port, true, rfl, number, literal, iff_of_true rfl colon⟩

/-- A host without brackets is accepted when it is a literal address without colons. -/
theorem parseAddrPort_plain (open' : host.head? ≠ some '[') : (parseAddrPort (host ++ ':' :: port)).isSome = true ↔
      (parseAddr host).isSome = true ∧ (parseUint port 16).isSome = true ∧ ':' ∉ host := by
  rw [parseAddrPort_isSome, splitAddrPort_plain clean open']
  constructor
  · rintro ⟨_, _, _, same, number, literal, family⟩
    split at same
    · cases same
    · cases same
      exact ⟨literal, number, fun colon => Bool.false_ne_true (family.mpr colon)⟩
  · rintro ⟨literal, number, colon⟩
    have filled : ¬ (host = [] ∨ port = []) := by
      rintro (rfl | rfl)
      · cases literal
      · cases number
    rw [if_neg filled]
    exact ⟨host, port, false, rfl, number, literal, iff_of_false Bool.false_ne_true colon⟩

/-- **Joined literals are read back.** `ParseAddrPort` accepts what `JoinHostPort` builds
exactly from literal addresses and ports. -/
theorem parseAddrPort_joinHostPort :
    (parseAddrPort (joinHostPort host port)).isSome = true ↔
      (parseAddr host).isSome = true ∧ (parseUint port 16).isSome = true := by
  rw [joinHostPort]
  split
  · next colon =>
    rw [parseAddrPort_brackets clean]
    exact ⟨fun fits => ⟨fits.1, fits.2.1⟩, fun fits => ⟨fits.1, fits.2, colon⟩⟩
  · next colon =>
    by_cases bracket : host.head? = some '['
    · obtain ⟨rest, rfl⟩ : ∃ rest, host = '[' :: rest := by
        cases host with
        | nil => cases bracket
        | cons c rest => exact ⟨rest, by rw [Option.some.inj bracket]⟩
      rw [parseAddr_head (by decide) (by decide)]
      refine iff_of_false ?_ fun fits => Bool.false_ne_true fits.1
      -- Whatever stands in the brackets has no colon either, so it is no IPv6 address.
      rw [parseAddrPort_isSome]
      rintro ⟨ip, _, v6, same, _, _, family⟩
      simp only [splitAddrPort, splitLast_eq_some.mpr ⟨rfl, clean⟩] at same
      split at same
      · cases same
      · split at same
        · cases same
        · cases same
          have inside := List.dropLast_subset _ (family.mp rfl)
          exact colon (.tail _ inside)
    · rw [parseAddrPort_plain clean bracket]
      exact ⟨fun fits => ⟨fits.1, fits.2.1⟩, fun fits => ⟨fits.1, fits.2, colon⟩⟩

omit clean

/-! ## Split texts -/

/-- A split text is a host in brackets or a host without colons and brackets. -/
theorem splitHostPort_eq_some {s host port : List Char}
    (split : splitHostPort s = some (host, port)) : ':' ∉ port ∧
      ((s.head? = some '[' ∧ s = '[' :: host ++ ']' :: ':' :: port) ∨
        (s.head? ≠ some '[' ∧ s = host ++ ':' :: port ∧ ':' ∉ host ∧ '[' ∉ host)) := by
  unfold splitHostPort at split
  split at split
  · cases split
  · next before last cut =>
    obtain ⟨whole, clean⟩ := splitLast_eq_some.mp cut
    split at split
    · next bracket =>
      split at split
      · cases split
      · next inside after closed =>
        obtain ⟨shape, _⟩ := splitFirst_eq_some.mp closed
        split at split
        · next ends =>
          cases split
          refine ⟨clean, .inl ⟨bracket, ?_⟩⟩
          cases inside with
          | nil =>
            rw [shape] at bracket
            cases bracket
          | cons c inside =>
            rw [shape] at bracket
            rw [whole, ends.1, ← Option.some.inj bracket]
            simp
        · cases split
    · next bracket =>
      split at split
      · cases split
      · next plain =>
        cases split
        simp only [not_or] at plain
        refine ⟨clean, .inr ⟨bracket, whole, plain.1, fun inside => plain.2.1 ?_⟩⟩
        rw [whole]
        exact List.mem_append_left _ inside

/-! ## Printed addresses -/

/-- `AddrPort.String`. -/
def addrPortString : Addr × Nat → List Char
  | (.zero, _) => "invalid AddrPort".toList
  | (.v4 a, port) => string4 a ++ ':' :: itoa port
  | (.v6 a zone, port) => '[' :: (Addr.v6 a zone).string ++ ']' :: ':' :: itoa port

/-- What stands before the port of a printed address. -/
def bracketed : Addr → List Char
  | .zero => Addr.zero.string
  | .v4 a => string4 a
  | .v6 a zone => '[' :: ((Addr.v6 a zone).string ++ [']'])

theorem bracketed_injective {addr other : Addr} (valid : addr ≠ .zero) (validOther : other ≠ .zero)
    (same : bracketed addr = bracketed other) : addr = other := by
  have mixed (a : BitVec 32) (b : BitVec 128) (zone : List Char) :
      bracketed (.v4 a) ≠ bracketed (.v6 b zone) := by
    obtain ⟨c, s, shape, digit⟩ := string4_eq_cons a
    unfold bracketed
    dsimp only
    rw [shape]
    intro equal
    rw [(List.cons.inj equal).1] at digit
    exact absurd digit (by decide)
  have texts : addr.string = other.string := by
    cases addr with
    | zero => exact (valid rfl).elim
    | v4 a =>
      cases other with
      | zero => exact (validOther rfl).elim
      | v4 b =>
        unfold bracketed at same
        unfold Addr.string
        exact same
      | v6 b zone => exact (mixed a b zone same).elim
    | v6 a zone =>
      cases other with
      | zero => exact (validOther rfl).elim
      | v4 b => exact (mixed b a zone same.symm).elim
      | v6 b zone' => exact List.append_cancel_right (List.cons.inj same).2
  have parsed := parseAddr_string valid
  rw [texts, parseAddr_string validOther] at parsed
  exact (Option.some.inj parsed).symm

theorem addrPortString_eq {addr : Addr} (valid : addr ≠ .zero) (port : Nat) :
    addrPortString (addr, port) = bracketed addr ++ ':' :: itoa port := by
  cases addr with
  | zero => exact (valid rfl).elim
  | v4 a =>
    unfold addrPortString bracketed
    with_reducible rfl
  | v6 a zone =>
    unfold addrPortString bracketed
    simp

/-- A valid `netip.AddrPort`. -/
structure AddrPort where
  addr : Addr
  port : Nat
  valid : addr ≠ .zero
deriving DecidableEq

/-- `AddrPort.String` of a valid one. -/
def AddrPort.string (a : AddrPort) : List Char :=
  addrPortString (a.addr, a.port)

theorem AddrPort.string_injective : Function.Injective AddrPort.string := by
  rintro ⟨addr, port, valid⟩ ⟨other, port', validOther⟩ same
  have clean (n : Nat) : ':' ∉ itoa n :=
    fun member => absurd (isDigit_of_mem_itoa member) (by decide)
  have cut : splitLast ':' (addrPortString (addr, port)) = some (bracketed addr, itoa port) :=
    splitLast_eq_some.mpr ⟨addrPortString_eq valid port, clean port⟩
  have cut' : splitLast ':' (addrPortString (other, port')) =
      some (bracketed other, itoa port') :=
    splitLast_eq_some.mpr ⟨addrPortString_eq validOther port', clean port'⟩
  rw [show addrPortString (addr, port) = addrPortString (other, port') from same, cut'] at cut
  obtain ⟨hosts, ports⟩ := Prod.mk.inj (Option.some.inj cut)
  obtain rfl := bracketed_injective validOther valid hosts
  obtain rfl := itoa_injective ports
  rfl

end Net
