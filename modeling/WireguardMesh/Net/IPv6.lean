import WireguardMesh.Net.IPv4

/-! # Printed addresses are read back

`netip.Addr.String` compresses the first of the longest runs of zero groups and prints
IPv4-mapped addresses in dotted form. `netip.ParseAddr` reads every such text back
(`Net.parseAddr_string`), so printing is injective on valid addresses.
-/

namespace Net
open GoText

variable {s : List Char} {n g fuel : Nat} {c : Char} {groups : List Nat} {bits : BitVec 128}
  {addr : Addr}

/-! ## Groups -/

theorem hexValue_digitChar : ∀ d < 16, hexValue (Nat.digitChar d) = some d := by
  decide

theorem parseHexGroup_digit {off acc d : Nat} (small : d < 16) (short : off ≤ 3)
    (bound : acc * 16 + d ≤ 65535) :
    parseHexGroup (Nat.digitChar d :: s) off acc = parseHexGroup s (off + 1) (acc * 16 + d) := by
  rw [parseHexGroup, hexValue_digitChar d small]
  simp only [if_neg (Nat.not_lt.mpr short), if_neg (Nat.not_lt.mpr bound)]

/-- The parser reads the digits of a number in any base up to 16; in base 16 it gets the
number. -/
theorem parseHexGroup_toDigits {b k : Nat} (two : 1 < b) (sixteen : b ≤ 16)
    (few : k < 4) (bound : n < b ^ (k + 1)) :
    ∃ value < 16 ^ (k + 1), (b = 16 → value = n) ∧ (Nat.toDigits b n).length ≤ k + 1 ∧
      ∀ s, parseHexGroup (Nat.toDigits b n ++ s) 0 0 =
        parseHexGroup s (Nat.toDigits b n).length value := by
  have one {n : Nat} (small : n < b) (s : List Char) :
      parseHexGroup (Nat.toDigits b n ++ s) 0 0 =
        parseHexGroup s (Nat.toDigits b n).length n := by
    rw [Nat.toDigits_of_lt_base small, List.singleton_append,
      parseHexGroup_digit (by omega) (Nat.zero_le 3) (by omega), Nat.zero_mul, Nat.zero_add,
      Nat.zero_add]
    rfl
  have hex : 16 ^ (k + 1) ≤ 65536 := Nat.pow_le_pow_right (by decide) few
  induction k generalizing n with
  | zero =>
    rw [Nat.zero_add, Nat.pow_one] at bound
    refine ⟨n, by omega, fun _ => rfl, ?_, one bound⟩
    rw [Nat.toDigits_of_lt_base bound]
    exact Nat.le_refl 1
  | succ k ih =>
    rw [Nat.pow_succ] at bound hex ⊢
    by_cases small : n < b
    · have positive : 0 < 16 ^ (k + 1) := Nat.pow_pos (by decide)
      refine ⟨n, by omega, fun _ => rfl, ?_, one small⟩
      rw [Nat.toDigits_of_lt_base small]
      exact Nat.le_add_left 1 _
    · obtain ⟨value, limit, exact', length, read⟩ := ih (by omega)
        ((Nat.div_lt_iff_lt_mul (Nat.zero_lt_of_lt two)).mpr bound) (by omega)
      have digit := Nat.mod_lt n (Nat.zero_lt_of_lt two)
      rw [Nat.toDigits_of_base_le two (Nat.le_of_not_lt small)]
      refine ⟨value * 16 + n % b, by omega, ?_, ?_, fun s => ?_⟩
      · rintro rfl
        rw [exact' rfl, Nat.div_add_mod']
      · rw [List.length_append]
        exact Nat.succ_le_succ length
      · rw [List.append_assoc, read, List.singleton_append,
          parseHexGroup_digit (by omega) (by omega) (by omega), List.length_append]
        rfl

/-- A text at which a group ends: it is empty or starts with no hexadecimal digit. -/
def endsGroup (s : List Char) : Bool :=
  match s with
  | [] => true
  | c :: _ => hexValue c = none

theorem parseHexGroup_end (ends : endsGroup s = true) (off acc : Nat) :
    parseHexGroup s off acc = some (off, acc, s) := by
  cases s with
  | nil => rfl
  | cons c s =>
    have stop : hexValue c = none := by simpa only [endsGroup, decide_eq_true_eq] using ends
    rw [parseHexGroup, stop]

theorem parseHexGroup_group (bound : g < 65536) (ends : endsGroup s = true) :
    parseHexGroup (Nat.toDigits 16 g ++ s) 0 0 = some ((Nat.toDigits 16 g).length, g, s) := by
  obtain ⟨value, _, same, _, read⟩ := parseHexGroup_toDigits (b := 16) (k := 3) (by decide)
    (Nat.le_refl 16) (by decide) bound
  rw [read, same rfl, parseHexGroup_end ends]

theorem hexValue_of_mem_toDigits (member : c ∈ Nat.toDigits 16 g) : hexValue c ≠ none := by
  induction g using Nat.strongRecOn with
  | _ g ih =>
    by_cases small : g < 16
    · rw [Nat.toDigits_of_lt_base small, List.mem_singleton] at member
      rw [member, hexValue_digitChar g small]
      exact Option.some_ne_none g
    · rw [Nat.toDigits_of_base_le (by decide) (Nat.le_of_not_lt small), List.mem_append,
        List.mem_singleton] at member
      rcases member with earlier | last
      · exact ih (g / 16) (by omega) earlier
      · rw [last, hexValue_digitChar _ (Nat.mod_lt _ (by decide))]
        exact Option.some_ne_none _

theorem toDigits_eq_cons (g : Nat) : ∃ c s, Nat.toDigits 16 g = c :: s ∧ hexValue c ≠ none := by
  obtain ⟨c, s, shape⟩ := List.exists_cons_of_ne_nil (Nat.toDigits_ne_nil (b := 16) (n := g))
  exact ⟨c, s, shape, hexValue_of_mem_toDigits (shape ▸ List.mem_cons_self)⟩

theorem length_toDigits_ne_zero (g : Nat) : (Nat.toDigits 16 g).length ≠ 0 :=
  fun none => Nat.toDigits_ne_nil (List.length_eq_zero_iff.mp none)

def groupBytes (groups : List Nat) : List Nat :=
  groups.flatMap fun g => [g / 256, g % 256]

@[simp] theorem groupBytes_cons (g : Nat) (groups : List Nat) :
    groupBytes (g :: groups) = [g / 256, g % 256] ++ groupBytes groups := rfl

@[simp] theorem groupBytes_append (front back : List Nat) :
    groupBytes (front ++ back) = groupBytes front ++ groupBytes back :=
  List.flatMap_append

@[simp] theorem length_groupBytes (groups : List Nat) :
    (groupBytes groups).length = 2 * groups.length := by
  induction groups with
  | nil => rfl
  | cons g groups ih =>
    rw [groupBytes_cons, List.length_append, ih, List.length_cons, List.length_cons,
      List.length_cons, List.length_nil]
    omega

theorem groupBytes_replicate_zero (n : Nat) :
    groupBytes (List.replicate n 0) = List.replicate (2 * n) 0 := by
  induction n with
  | zero => rfl
  | succ n ih => rw [List.replicate_succ, groupBytes_cons, ih]; rfl

/-- The text of a non-empty list of groups starts with a hexadecimal digit. -/
theorem groupsText_eq_cons (more : groups ≠ []) :
    ∃ c s, groupsText groups = c :: s ∧ hexValue c ≠ none := by
  obtain ⟨g, rest, rfl⟩ := List.exists_cons_of_ne_nil more
  obtain ⟨c, s, shape, digit⟩ := toDigits_eq_cons g
  cases rest with
  | nil => exact ⟨c, s, shape, digit⟩
  | cons g' rest => exact ⟨c, _, congrArg (· ++ ':' :: groupsText (g' :: rest)) shape, digit⟩

theorem groupsText_cons (more : groups ≠ []) :
    groupsText (g :: groups) = Nat.toDigits 16 g ++ ':' :: groupsText groups := by
  obtain ⟨g', rest, rfl⟩ := List.exists_cons_of_ne_nil more
  rfl

theorem hexValue_colon : hexValue ':' = none := by
  decide

theorem parseIPv6Groups_colon
    (bound : g < 65536) (digit : hexValue c ≠ none) (ip : List Nat) (ellipsis : Option Nat) :
    parseIPv6Groups (fuel + 1) (Nat.toDigits 16 g ++ ':' :: c :: s) ip ellipsis =
      parseIPv6Groups fuel (c :: s) (ip ++ [g / 256, g % 256]) ellipsis := by
  have different : c ≠ ':' := by
    rintro rfl
    exact digit hexValue_colon
  have ends : endsGroup (':' :: c :: s) = true := by
    simp [endsGroup, hexValue_colon]
  rw [parseIPv6Groups, parseHexGroup_group bound ends]
  simp only [if_neg (length_toDigits_ne_zero g)]
  split
  · next empty => cases empty
  · next dotted => cases dotted
  · next alone => cases alone
  · next double =>
    cases double
    exact (different rfl).elim
  · next single =>
    cases single
    rfl
  · next other => exact (other (c :: s) rfl).elim

/-- All groups but the last are read one after the other. -/
theorem parseIPv6Groups_init {init : List Nat} (bounds : ∀ g ∈ init, g < 65536) (g : Nat)
    (tail : List Char) (ip : List Nat) (ellipsis : Option Nat) :
    parseIPv6Groups (fuel + init.length) (groupsText (init ++ [g]) ++ tail) ip ellipsis =
      parseIPv6Groups fuel (Nat.toDigits 16 g ++ tail) (ip ++ groupBytes init) ellipsis := by
  induction init generalizing ip with
  | nil => exact congrArg (parseIPv6Groups fuel _ · ellipsis) (List.append_nil ip).symm
  | cons g' init ih =>
    have more : init ++ [g] ≠ [] := List.append_ne_nil_of_right_ne_nil _ (List.cons_ne_nil _ _)
    have rest := ih (fun h member => bounds h (.tail _ member)) (ip ++ [g' / 256, g' % 256])
    obtain ⟨c, s, shape, digit⟩ := groupsText_eq_cons more
    have text : groupsText (g' :: (init ++ [g])) ++ tail =
        Nat.toDigits 16 g' ++ ':' :: c :: (s ++ tail) := by
      rw [groupsText_cons more, shape, List.append_assoc]
      rfl
    rw [shape, List.cons_append] at rest
    rw [List.cons_append, text, List.length_cons, ← Nat.add_assoc,
      parseIPv6Groups_colon (bounds g' (.head _)) digit, rest, groupBytes_cons, List.append_assoc]

theorem parseIPv6Groups_groupsText (more : groups ≠ [])
    (bounds : ∀ g ∈ groups, g < 65536) (enough : groups.length ≤ fuel) (ip : List Nat)
    (ellipsis : Option Nat) : parseIPv6Groups fuel (groupsText groups) ip ellipsis =
      some (ip ++ groupBytes groups, ellipsis) := by
  obtain ⟨init, g, rfl⟩ := List.eq_nil_or_concat' groups |>.resolve_left more
  rw [List.length_append] at enough
  obtain ⟨fuel, rfl⟩ := Nat.exists_eq_add_of_le' enough
  rw [List.forall_mem_append] at bounds
  have group := parseHexGroup_group (bounds.2 g (.head _)) (s := []) rfl
  rw [← List.append_nil (groupsText _), ← Nat.add_assoc, Nat.add_right_comm,
    parseIPv6Groups_init bounds.1]
  rw [List.length_singleton, parseIPv6Groups, group, groupBytes_append, ← List.append_assoc]
  simp only [if_neg (length_toDigits_ne_zero g)]
  rfl

/-- A text of groups behind which the ellipsis is filled in. -/
def tailGroups (fuel : Nat) (groups : List Nat) (ip : List Nat) (ellipsis : Nat) :
    Option (List Nat × Option Nat) :=
  if groups = [] then some (ip, some ellipsis)
  else parseIPv6Groups fuel (groupsText groups) ip (some ellipsis)

theorem tailGroups_eq (bounds : ∀ g ∈ groups, g < 65536) (enough : groups.length ≤ fuel)
    (ip : List Nat) (ellipsis : Nat) :
    tailGroups fuel groups ip ellipsis = some (ip ++ groupBytes groups, some ellipsis) := by
  rw [tailGroups]
  split
  · next none =>
    rw [none, groupBytes, List.flatMap_nil, List.append_nil]
  · next more => exact parseIPv6Groups_groupsText more bounds enough ip _

theorem parseIPv6Groups_ellipsis (bound : g < 65536) (ip back : List Nat) :
    parseIPv6Groups (fuel + 1) (Nat.toDigits 16 g ++ ':' :: ':' :: groupsText back) ip none =
      tailGroups fuel back (ip ++ [g / 256, g % 256]) (ip.length + 2) := by
  have ends : endsGroup (':' :: ':' :: groupsText back) = true := by
    simp [endsGroup, hexValue_colon]
  rw [parseIPv6Groups, parseHexGroup_group bound ends]
  simp only [if_neg (length_toDigits_ne_zero g), Option.isSome_none, Bool.false_eq_true,
    ↓reduceIte, tailGroups]
  by_cases none : back = []
  · rw [if_pos none, none]
    rfl
  · obtain ⟨c, s, shape, _⟩ := groupsText_eq_cons none
    rw [if_neg none, if_neg (by rw [shape]; exact List.cons_ne_nil c s)]

theorem parseIPv6Groups_compressed
    {front : List Nat} (more : front ≠ []) (bounds : ∀ g ∈ front, g < 65536)
    (enough : front.length ≤ fuel) (ip back : List Nat) :
    parseIPv6Groups fuel (groupsText front ++ ':' :: ':' :: groupsText back) ip none =
      tailGroups (fuel - front.length) back (ip ++ groupBytes front)
        (ip.length + 2 * front.length) := by
  obtain ⟨init, g, rfl⟩ := List.eq_nil_or_concat' front |>.resolve_left more
  rw [List.length_append] at enough ⊢
  obtain ⟨fuel, rfl⟩ := Nat.exists_eq_add_of_le' enough
  rw [List.forall_mem_append] at bounds
  rw [Nat.add_sub_cancel, ← Nat.add_assoc, Nat.add_right_comm, parseIPv6Groups_init bounds.1,
    List.length_singleton, parseIPv6Groups_ellipsis (bounds.2 g (.head _)), groupBytes_append,
    ← List.append_assoc, List.length_append, length_groupBytes, Nat.mul_add, Nat.add_assoc]
  rfl

/-! ## The compressed run of zeros -/

/-- A pair of positions between which all groups are zero. -/
def IsZeroRun (groups : List Nat) (run : Nat × Nat) : Prop :=
  run.1 < run.2 ∧ run.2 ≤ groups.length ∧
    groups = groups.take run.1 ++ List.replicate (run.2 - run.1) 0 ++ groups.drop run.2

theorem takeWhile_zero_eq (groups : List Nat) : groups.takeWhile (fun g => decide (g = 0)) =
      List.replicate (groups.takeWhile (fun g => decide (g = 0))).length 0 := by
  apply List.eq_replicate_of_mem
  intro g member
  simpa only [decide_eq_true_eq] using List.mem_takeWhile_imp member

theorem isZeroRun_takeWhile (groups : List Nat) (i : Nat)
    (positive : 0 < ((groups.drop i).takeWhile (fun g => decide (g = 0))).length) :
    IsZeroRun groups (i, i + ((groups.drop i).takeWhile (fun g => decide (g = 0))).length) := by
  have zeros := takeWhile_zero_eq (groups.drop i)
  have cut := List.takeWhile_append_dropWhile (p := fun g => decide (g = 0)) (l := groups.drop i)
  have fits : ((groups.drop i).takeWhile (fun g => decide (g = 0))).length ≤ groups.length - i := by
    rw [← List.length_drop]
    exact (List.takeWhile_sublist _).length_le
  generalize hrun : (groups.drop i).takeWhile (fun g => decide (g = 0)) = run at *
  refine ⟨by omega, by omega, ?_⟩
  simp only [Nat.add_sub_cancel_left, ← zeros]
  rw [List.append_assoc, ← List.drop_drop]
  have rest : (groups.drop i).drop run.length = (groups.drop i).dropWhile fun g => decide (g = 0) := by
    conv_lhs => rw [← cut]
    exact List.drop_left
  rw [rest, cut, List.take_append_drop]

theorem isZeroRun_longerRun {best : Option (Nat × Nat)} {i : Nat}
    (invariant : ∀ run, best = some run → IsZeroRun groups run) :
    ∀ run, longerRun groups best i = some run → IsZeroRun groups run := by
  intro run chosen
  rw [longerRun] at chosen
  split at chosen
  · next long =>
    cases chosen
    exact isZeroRun_takeWhile groups i (Nat.lt_of_lt_of_le (by decide) long.1)
  · exact invariant run chosen

theorem isZeroRun_of_zeroRun {run : Nat × Nat} (found : zeroRun groups = some run) :
    IsZeroRun groups run := by
  have kept : ∀ (positions : List Nat) (best : Option (Nat × Nat)),
      (∀ run, best = some run → IsZeroRun groups run) →
      ∀ run, positions.foldl (longerRun groups) best = some run → IsZeroRun groups run := by
    intro positions
    induction positions with
    | nil => exact fun best invariant => invariant
    | cons i positions ih => exact fun best invariant => ih _ (isZeroRun_longerRun invariant)
  exact kept (List.range 8) none (nofun) run found

/-! ## Round trips -/

theorem addrGroups_lt (bits : BitVec 128) : ∀ g ∈ addrGroups bits, g < 65536 := by
  intro g member
  obtain ⟨i, _, rfl⟩ := List.mem_map.mp member
  exact Nat.mod_lt _ (by decide)

theorem length_addrGroups (bits : BitVec 128) : (addrGroups bits).length = 8 := by
  rw [addrGroups, List.length_map, List.length_range]

theorem ofBytes_groupBytes (bits : BitVec 128) :
    Addr.ofBytes (groupBytes (addrGroups bits)) = bits := by
  apply BitVec.eq_of_toNat_eq
  have bound := bits.isLt
  simp only [Addr.ofBytes, addrGroups, groupBytes, List.range, List.range.loop, List.map_cons,
    List.map_nil, List.flatMap_cons, List.flatMap_nil, List.cons_append, List.nil_append,
    List.append_nil, List.foldl_cons, List.foldl_nil, Addr.group, BitVec.toNat_ofNat]
  omega

theorem expandEllipsis_run {front back : List Nat} (size : front.length + n + back.length = 8)
    (positive : 0 < n) :
    expandEllipsis (groupBytes front ++ groupBytes back) (some (2 * front.length)) =
      some (groupBytes (front ++ List.replicate n 0 ++ back)) := by
  have short : (groupBytes front ++ groupBytes back).length < 16 := by
    rw [List.length_append, length_groupBytes, length_groupBytes]
    omega
  have fill : 16 - (groupBytes front ++ groupBytes back).length = 2 * n := by
    rw [List.length_append, length_groupBytes, length_groupBytes]
    omega
  have cut : 2 * front.length = (groupBytes front).length := (length_groupBytes front).symm
  rw [expandEllipsis, if_pos short, fill, cut, List.take_left, List.drop_left, groupBytes_append,
    groupBytes_append, groupBytes_replicate_zero]

theorem groupsText_ne_colon (more : groups ≠ []) : groupsText groups ≠ ':' :: s := by
  obtain ⟨c, t, shape, digit⟩ := groupsText_eq_cons more
  intro same
  rw [shape] at same
  cases same
  exact digit hexValue_colon

theorem parseIPv6Bytes_of_ne_colon (head : ∀ t, s ≠ ':' :: t) : parseIPv6Bytes s =
      (parseIPv6Groups 8 s [] none).bind fun parts => expandEllipsis parts.1 parts.2 := by
  rw [parseIPv6Bytes]
  · intro same
    exact head _ same
  · intro t same
    exact head _ same

theorem parseIPv6Bytes_string6 (bits : BitVec 128) :
    parseIPv6Bytes (string6 bits) = some (groupBytes (addrGroups bits)) := by
  have bounds := addrGroups_lt bits
  have size := length_addrGroups bits
  rw [string6]
  generalize addrGroups bits = groups at *
  cases run : zeroRun groups with
  | none =>
    have more : groups ≠ [] := by
      rintro rfl
      cases size
    rw [parseIPv6Bytes_of_ne_colon (fun t => groupsText_ne_colon more),
      parseIPv6Groups_groupsText more bounds (Nat.le_of_eq size)]
    have full : ¬ (groupBytes groups).length < 16 := by
      rw [length_groupBytes, size]
      decide
    simp only [List.nil_append, Option.bind_some, expandEllipsis, if_neg full]
  | some run' =>
    obtain ⟨start, stop⟩ := run'
    obtain ⟨order, fits, shape⟩ := isZeroRun_of_zeroRun run
    dsimp only at order fits shape ⊢
    have sizes : (groups.take start).length + (stop - start) + (groups.drop stop).length = 8 := by
      rw [List.length_take, List.length_drop]
      omega
    have expanded := expandEllipsis_run sizes (Nat.sub_pos_of_lt order)
    rw [← shape] at expanded
    have backBounds : ∀ g ∈ groups.drop stop, g < 65536 :=
      fun g member => bounds g (List.mem_of_mem_drop member)
    by_cases first : groups.take start = []
    · rw [first, List.length_nil, Nat.mul_zero] at expanded
      rw [first]
      by_cases none : groups.drop stop = []
      · have zeros : groups = List.replicate 8 0 := by
          rw [first, none, List.nil_append, List.append_nil] at shape
          rw [first, none] at sizes
          have width : stop - start = 8 := by simpa using sizes
          rw [shape, width]
        rw [none, zeros]
        rfl
      · obtain ⟨c, t, text, digit⟩ := groupsText_eq_cons none
        have read := parseIPv6Groups_groupsText none backBounds (by omega : _ ≤ 8) [] (some 0)
        rw [text] at read
        rw [text]
        change (parseIPv6Groups 8 (c :: t) [] (some 0)).bind _ = _
        rw [read]
        exact expanded
    · obtain ⟨c, t, text, digit⟩ := groupsText_eq_cons first
      have head : ∀ u, groupsText (groups.take start) ++ ':' :: ':' ::
          groupsText (groups.drop stop) ≠ ':' :: u := by
        intro u same
        rw [text] at same
        cases same
        exact digit hexValue_colon
      rw [parseIPv6Bytes_of_ne_colon head, parseIPv6Groups_compressed first
        (fun g member => bounds g (List.mem_of_mem_take member)) (by omega),
        tailGroups_eq backBounds (by omega)]
      simp only [List.nil_append, List.length_nil, Nat.zero_add, Option.bind_some]
      exact expanded

/-! ### Embedded IPv4 -/

theorem parseHexGroup_itoa (bound : n ≤ 255) (ends : endsGroup s = true) :
    ∃ value, parseHexGroup (itoa n ++ s) 0 0 = some ((itoa n).length, value, s) := by
  obtain ⟨value, _, _, _, read⟩ := parseHexGroup_toDigits (b := 10) (k := 2) (by decide)
    (by decide) (by decide) (by omega : n < 10 ^ 3)
  exact ⟨value, (read s).trans (parseHexGroup_end ends _ _)⟩

theorem parseIPv6Groups_string4
    (bits : BitVec 32) {ip : List Nat} (room : ip.length + 4 ≤ 16) (ellipsis : Nat) :
    parseIPv6Groups (fuel + 1) (string4 bits) ip (some ellipsis) =
      some (ip ++ [Addr.octet bits 0, Addr.octet bits 1, Addr.octet bits 2, Addr.octet bits 3],
        some ellipsis) := by
  have ends (s : List Char) : endsGroup ('.' :: s) = true := by
    have dot : hexValue '.' = none := by decide
    simp only [endsGroup, dot, decide_true]
  obtain ⟨value, read⟩ := parseHexGroup_itoa (octet_le bits 0) (ends (joinWith '.'
    [itoa (Addr.octet bits 1), itoa (Addr.octet bits 2), itoa (Addr.octet bits 3)]))
  have head : parseHexGroup (string4 bits) 0 0 = _ := read
  rw [parseIPv6Groups, head]
  simp only [if_neg (length_itoa_ne_zero _), reduceCtorEq, false_and, ↓reduceIte,
    if_neg (Nat.not_lt.mpr room), parseIPv4Fields_string4, Option.map_some]

theorem string4_eq_cons (bits : BitVec 32) : ∃ c s, string4 bits = c :: s ∧ c.isDigit = true := by
  obtain ⟨c, s, shape⟩ := List.exists_cons_of_ne_nil (itoa_ne_nil (Addr.octet bits 0))
  refine ⟨c, s ++ '.' :: joinWith '.' [itoa (Addr.octet bits 1), itoa (Addr.octet bits 2),
    itoa (Addr.octet bits 3)], ?_, ?_⟩
  · rw [string4, joinWith_cons_cons, shape, List.cons_append]
  · exact isDigit_of_mem_itoa (shape ▸ List.mem_cons_self)

theorem hexValue_of_isDigit (digit : c.isDigit = true) : hexValue c ≠ none := by
  obtain ⟨same, small⟩ := digitChar_of_isDigit digit
  rw [same, hexValue_digitChar _ (by omega)]
  exact Option.some_ne_none _

theorem parseIPv6Bytes_mapped (bits : BitVec 32) :
    parseIPv6Bytes ("::ffff:".toList ++ string4 bits) =
      some (List.replicate 10 0 ++ [255, 255, Addr.octet bits 0, Addr.octet bits 1,
        Addr.octet bits 2, Addr.octet bits 3]) := by
  obtain ⟨c, s, shape, digit⟩ := string4_eq_cons bits
  have group : parseIPv6Groups 8 ("ffff:".toList ++ string4 bits) [] (some 0) =
      some ([255, 255, Addr.octet bits 0, Addr.octet bits 1, Addr.octet bits 2,
        Addr.octet bits 3], some 0) := by
    have text : "ffff:".toList ++ string4 bits = Nat.toDigits 16 65535 ++ ':' :: c :: s := by
      rw [shape]
      rfl
    rw [text, parseIPv6Groups_colon (by decide) (hexValue_of_isDigit digit), ← shape,
      parseIPv6Groups_string4 bits (by decide)]
    rfl
  change (parseIPv6Groups 8 ("ffff:".toList ++ string4 bits) [] (some 0)).bind _ = _
  rw [group]
  rfl

theorem ofBytes_mapped (mapped : bits.toNat / 2 ^ 32 = 0xffff) :
    Addr.ofBytes (List.replicate 10 0 ++ [255, 255, Addr.octet (bits.truncate 32) 0,
      Addr.octet (bits.truncate 32) 1, Addr.octet (bits.truncate 32) 2,
      Addr.octet (bits.truncate 32) 3]) = bits := by
  apply BitVec.eq_of_toNat_eq
  have bound := bits.isLt
  simp only [Addr.ofBytes, List.replicate, List.cons_append, List.nil_append, List.foldl_cons,
    List.foldl_nil, Addr.octet, BitVec.truncate_eq_setWidth, BitVec.toNat_setWidth,
    BitVec.toNat_ofNat]
  omega

/-! ### Whole addresses -/

theorem parseIPv6_zoneSuffix {text zone : List Char} (clean : '%' ∉ text) :
    parseIPv6 (text ++ zoneSuffix zone) =
      (parseIPv6Bytes text).map fun bytes => .v6 (Addr.ofBytes bytes) zone := by
  rw [parseIPv6, zoneSuffix]
  by_cases none : zone = []
  · rw [if_pos none, List.append_nil, splitFirst_eq_none.mpr clean, none]
  · rw [if_neg none, splitFirst_eq_some.mpr ⟨rfl, clean⟩]
    simp only [if_neg none]

theorem mem_groupsText (member : c ∈ groupsText groups) : hexValue c ≠ none ∨ c = ':' := by
  induction groups with
  | nil => cases member
  | cons g groups ih =>
    by_cases more : groups = []
    · subst more
      exact .inl (hexValue_of_mem_toDigits member)
    · rw [groupsText_cons more, List.mem_append, List.mem_cons] at member
      rcases member with digit | colon | later
      · exact .inl (hexValue_of_mem_toDigits digit)
      · exact .inr colon
      · exact ih later

theorem mem_string6 (member : c ∈ string6 bits) : hexValue c ≠ none ∨ c = ':' := by
  rw [string6] at member
  split at member
  · exact mem_groupsText member
  · simp only [List.mem_append, List.mem_cons] at member
    rcases member with front | colon | colon | back
    · exact mem_groupsText front
    · exact .inr colon
    · exact .inr colon
    · exact mem_groupsText back

theorem colon_mem_string6 (bits : BitVec 128) : ':' ∈ string6 bits := by
  rw [string6]
  split
  · change ':' ∈ Nat.toDigits 16 _ ++ ':' :: _
    exact List.mem_append_right _ (.head _)
  · exact List.mem_append_right _ (.head _)

/-- A text of hexadecimal digits and colons, with at least one colon, is taken for an IPv6 address,
whatever follows. -/
theorem parseAddr_eq_parseIPv6 {text rest : List Char} (colon : ':' ∈ text)
    (chars : ∀ c ∈ text, hexValue c ≠ none ∨ c = ':') :
    parseAddr (text ++ rest) = parseIPv6 (text ++ rest) := by
  have found : text.find? (fun c => c = '.' ∨ c = ':' ∨ c = '%') = some ':' := by
    cases first : text.find? (fun c => c = '.' ∨ c = ':' ∨ c = '%') with
    | none =>
      have absent := List.find?_eq_none.mp first ':' colon
      exact (absent (by decide)).elim
    | some c =>
      have special := List.find?_some first
      simp only [decide_eq_true_eq] at special
      rcases chars c (List.mem_of_find?_eq_some first) with digit | rfl
      · rcases special with rfl | rfl | rfl
        · exact (digit (by decide)).elim
        · rfl
        · exact (digit (by decide)).elim
      · rfl
  rw [parseAddr, List.find?_append, found]
  rfl

theorem mem_string4 {bits : BitVec 32} (member : c ∈ string4 bits) :
    c.isDigit = true ∨ c = '.' := by
  simp only [string4, joinWith, List.mem_append, List.mem_cons] at member
  rcases member with digit | dot | digit | dot | digit | dot | digit
  · exact .inl (isDigit_of_mem_itoa digit)
  · exact .inr dot
  · exact .inl (isDigit_of_mem_itoa digit)
  · exact .inr dot
  · exact .inl (isDigit_of_mem_itoa digit)
  · exact .inr dot
  · exact .inl (isDigit_of_mem_itoa digit)

theorem not_mem_string4
    (bits : BitVec 32) (notDigit : c.isDigit = false) (notDot : c ≠ '.') : c ∉ string4 bits := by
  intro member
  rcases mem_string4 member with digit | dot
  · exact Bool.false_ne_true (notDigit.symm.trans digit)
  · exact notDot dot

theorem find?_string4 (bits : BitVec 32) :
    (string4 bits).find? (fun c => c = '.' ∨ c = ':' ∨ c = '%') = some '.' := by
  have chars : ∀ c ∈ itoa (Addr.octet bits 0), ¬ (decide (c = '.' ∨ c = ':' ∨ c = '%') = true) := by
    intro c member special
    have digit : c.isDigit = true := isDigit_of_mem_itoa member
    simp only [decide_eq_true_eq] at special
    rcases special with rfl | rfl | rfl <;> revert digit <;> decide
  rw [string4, joinWith_cons_cons, List.find?_append, List.find?_eq_none.mpr chars]
  rfl

theorem parseAddr_string4 (bits : BitVec 32) : parseAddr (string4 bits) = some (.v4 bits) := by
  rw [parseAddr, find?_string4]
  simp [parseIPv4_eq_some.mpr rfl]

theorem parseAddr_mapped {zone : List Char} (mapped : bits.toNat / 2 ^ 32 = 0xffff) :
    parseAddr ("::ffff:".toList ++ (string4 (bits.truncate 32) ++ zoneSuffix zone)) =
      some (.v6 bits zone) := by
  have clean : '%' ∉ "::ffff:".toList ++ string4 (bits.truncate 32) := by
    intro percent
    rcases List.mem_append.mp percent with lead | dotted
    · revert lead
      decide
    · exact not_mem_string4 _ (by decide) (by decide) dotted
  rw [parseAddr_eq_parseIPv6 (by decide) (by simp [hexValue]), ← List.append_assoc,
    parseIPv6_zoneSuffix clean, parseIPv6Bytes_mapped, Option.map_some, ofBytes_mapped mapped]

theorem parseAddr_string6 (bits : BitVec 128) (zone : List Char) :
    parseAddr (string6 bits ++ zoneSuffix zone) = some (.v6 bits zone) := by
  have clean : '%' ∉ string6 bits := by
    intro percent
    rcases mem_string6 percent with digit | colon
    · exact digit (by decide)
    · exact absurd colon (by decide)
  rw [parseAddr_eq_parseIPv6 (colon_mem_string6 bits) (fun c => mem_string6),
    parseIPv6_zoneSuffix clean, parseIPv6Bytes_string6, Option.map_some, ofBytes_groupBytes]

/-- **Addresses round-trip.** Every valid address is read back from its printed form. -/
theorem parseAddr_string (valid : addr ≠ .zero) : parseAddr addr.string = some addr := by
  cases addr with
  | zero => exact (valid rfl).elim
  | v4 bits => exact parseAddr_string4 bits
  | v6 bits zone =>
    by_cases mapped : (Addr.v6 bits zone).is4In6 = true
    · rw [show (Addr.v6 bits zone).string = _ from if_pos mapped]
      exact parseAddr_mapped (of_decide_eq_true mapped)
    · rw [Addr.string_of_not_is4In6 mapped]
      exact parseAddr_string6 bits zone

/-- `netip.parseIPv6` gives IPv6 addresses, and a zone stands at the end of the text. -/
theorem parseIPv6_eq_some (parsed : parseIPv6 s = some addr) :
    ∃ bits zone, addr = .v6 bits zone ∧ (zone = [] ∨ ∃ text, s = text ++ '%' :: zone) := by
  rw [parseIPv6] at parsed
  split at parsed
  · obtain ⟨bytes, _, rfl⟩ := Option.map_eq_some_iff.mp parsed
    exact ⟨_, [], rfl, .inl rfl⟩
  · next text zone cut =>
    split at parsed
    · cases parsed
    · obtain ⟨bytes, _, rfl⟩ := Option.map_eq_some_iff.mp parsed
      exact ⟨_, zone, rfl, .inr ⟨text, (splitFirst_eq_some.mp cut).1⟩⟩

theorem parseAddr_eq_v4 {a : BitVec 32} : parseAddr s = some (.v4 a) ↔ s = string4 a := by
  constructor
  · intro parsed
    rw [parseAddr] at parsed
    split at parsed
    · obtain ⟨_, dotted, same⟩ := Option.map_eq_some_iff.mp parsed
      cases same
      exact parseIPv4_eq_some.mp dotted
    · obtain ⟨_, _, impossible, _⟩ := parseIPv6_eq_some parsed
      cases impossible
    · cases parsed
  · rintro rfl
    exact parseAddr_string4 a

/-- The version of a parsed address shows in its text: only IPv6 texts have colons. -/
theorem parseAddr_family (parsed : parseAddr s = some addr) :
    (addr.is6 = true ∧ addr.is4 = false ∧ ':' ∈ s) ∨
      (addr.is6 = false ∧ addr.is4 = true ∧ ':' ∉ s) := by
  unfold parseAddr at parsed
  split at parsed
  · obtain ⟨a, dotted, rfl⟩ := Option.map_eq_some_iff.mp parsed
    rw [parseIPv4_eq_some.mp dotted]
    exact .inr ⟨rfl, rfl, not_mem_string4 a (by decide) (by decide)⟩
  · next found =>
    obtain ⟨_, _, rfl, _⟩ := parseIPv6_eq_some parsed
    exact .inl ⟨rfl, rfl, List.mem_of_find?_eq_some found⟩
  · cases parsed

end Net
