import Mathlib.Data.List.Basic

/-! # Separator framing

A writer that ends every field with one symbol and every record with another produces a
text that can be taken apart again, as long as the fields contain neither symbol
(`Framing.fields_stop_injective`, `Framing.records_append_injective`).
-/

namespace Framing

variable {α : Type}

/-- Fields, each followed by the separator. -/
def fields (sep : α) (parts : List (List α)) : List α :=
  parts.flatMap fun part => part ++ [sep]

/-- Records of fields, each followed by the stop symbol. -/
def records (sep stop : α) (rows : List (List (List α))) : List α :=
  rows.flatMap fun parts => fields sep parts ++ [stop]

def Clean (sep stop : α) (parts : List (List α)) : Prop :=
  ∀ part ∈ parts, sep ∉ part ∧ stop ∉ part

section

variable {sep stop : α}

@[simp] theorem fields_cons (part : List α) (parts : List (List α)) :
    fields sep (part :: parts) = part ++ sep :: fields sep parts := by
  rw [fields, List.flatMap_cons, List.append_assoc, List.singleton_append, fields]

@[simp] theorem fields_append (front back : List (List α)) :
    fields sep (front ++ back) = fields sep front ++ fields sep back :=
  List.flatMap_append

theorem fields_flatten (groups : List (List (List α))) :
    fields sep groups.flatten = groups.flatMap (fields sep) := by
  rw [fields, List.flatMap_def, List.map_flatten, List.flatten_flatten, List.map_map,
    List.flatMap_def]
  congr 1

@[simp] theorem records_cons (parts : List (List α)) (rows : List (List (List α))) :
    records sep stop (parts :: rows) = fields sep parts ++ stop :: records sep stop rows := by
  rw [records, List.flatMap_cons, List.append_assoc, List.singleton_append, records]

@[simp] theorem records_append (front back : List (List (List α))) :
    records sep stop (front ++ back) = records sep stop front ++ records sep stop back :=
  List.flatMap_append

theorem Clean.tail {part : List α} {parts : List (List α)}
    (clean : Clean sep stop (part :: parts)) : Clean sep stop parts :=
  fun other member => clean other (.tail _ member)

theorem append_sep_injective {left right rest rest' : List α} (cleanLeft : sep ∉ left)
    (cleanRight : sep ∉ right) (same : left ++ sep :: rest = right ++ sep :: rest') :
    left = right ∧ rest = rest' := by
  induction left generalizing right with
  | nil =>
    cases right with
    | nil => exact ⟨rfl, (List.cons.inj same).2⟩
    | cons b right => exact (cleanRight ((List.cons.inj same).1 ▸ (.head _))).elim
  | cons a left ih =>
    cases right with
    | nil => exact (cleanLeft ((List.cons.inj same).1 ▸ (.head _))).elim
    | cons b right =>
      obtain ⟨rfl, tails⟩ := List.cons.inj same
      obtain ⟨rfl, rests⟩ := ih (fun inside => cleanLeft (.tail _ inside))
        (fun inside => cleanRight (.tail _ inside)) tails
      exact ⟨rfl, rests⟩

section

variable (different : sep ≠ stop)

include different

theorem stop_not_mem_fields {parts : List (List α)}
    (clean : Clean sep stop parts) : stop ∉ fields sep parts := by
  intro member
  obtain ⟨part, listed, inside⟩ := List.mem_flatMap.mp member
  rcases List.mem_append.mp inside with inPart | last
  · exact (clean part listed).2 inPart
  · exact different (List.mem_singleton.mp last).symm

theorem stop_ne_field {part rest rest' : List α}
    (clean : stop ∉ part) : stop :: rest ≠ part ++ sep :: rest' := by
  intro same
  cases part with
  | nil => exact different (List.cons.inj same).1.symm
  | cons a part => exact clean ((List.cons.inj same).1 ▸ (.head _))

/-- The fields of a record are determined, and so is what follows the record. -/
theorem fields_stop_injective {left right : List (List α)}
    {rest rest' : List α} (cleanLeft : Clean sep stop left) (cleanRight : Clean sep stop right)
    (same : fields sep left ++ stop :: rest = fields sep right ++ stop :: rest') :
    left = right ∧ rest = rest' := by
  induction left generalizing right with
  | nil =>
    cases right with
    | nil => exact ⟨rfl, (List.cons.inj same).2⟩
    | cons part right =>
      rw [fields_cons, List.append_assoc] at same
      exact (stop_ne_field different (cleanRight part (.head _)).2 same).elim
  | cons part left ih =>
    cases right with
    | nil =>
      rw [fields_cons, List.append_assoc] at same
      exact (stop_ne_field different (cleanLeft part (.head _)).2 same.symm).elim
    | cons part' right =>
      rw [fields_cons, fields_cons, List.append_assoc, List.append_assoc] at same
      obtain ⟨rfl, tails⟩ := append_sep_injective (cleanLeft part (.head _)).1
        (cleanRight part' (.head _)).1 same
      obtain ⟨rfl, rests⟩ := ih cleanLeft.tail cleanRight.tail tails
      exact ⟨rfl, rests⟩

theorem fields_injective {left right : List (List α)}
    (cleanLeft : Clean sep stop left) (cleanRight : Clean sep stop right)
    (same : fields sep left = fields sep right) : left = right := by
  have stopped : fields sep left ++ [stop] = fields sep right ++ [stop] := by rw [same]
  exact (fields_stop_injective different cleanLeft cleanRight stopped).1

/-- **Framed texts are unambiguous.** The records and the loose fields after them are
determined by the text. -/
theorem records_append_injective {rows rows' : List (List (List α))}
    {loose loose' : List (List α)} (cleanRows : ∀ parts ∈ rows, Clean sep stop parts)
    (cleanRows' : ∀ parts ∈ rows', Clean sep stop parts) (cleanLoose : Clean sep stop loose)
    (cleanLoose' : Clean sep stop loose') (same : records sep stop rows ++ fields sep loose =
      records sep stop rows' ++ fields sep loose') : rows = rows' ∧ loose = loose' := by
  induction rows generalizing rows' with
  | nil =>
    cases rows' with
    | nil => exact ⟨rfl, fields_injective different cleanLoose cleanLoose' same⟩
    | cons parts rows' =>
      refine (stop_not_mem_fields different cleanLoose ?_).elim
      rw [show fields sep loose = _ from same, records_cons]
      simp
  | cons parts rows ih =>
    cases rows' with
    | nil =>
      refine (stop_not_mem_fields different cleanLoose' ?_).elim
      rw [show fields sep loose' = _ from same.symm, records_cons]
      simp
    | cons parts' rows' =>
      rw [records_cons, records_cons, List.append_assoc, List.append_assoc] at same
      obtain ⟨rfl, rest⟩ := fields_stop_injective different
        (cleanRows parts (.head _)) (cleanRows' parts' (.head _)) same
      obtain ⟨rfl, loose⟩ := ih
        (fun other member => cleanRows other (.tail _ member))
        (fun other member => cleanRows' other (.tail _ member)) rest
      exact ⟨rfl, loose⟩

end

end

/-! ## Kinds of records -/

theorem append_injective_of_kinds {β : Type} (kind : β → Bool) {front back front' back' : List β}
    (isFront : ∀ row ∈ front, kind row = true) (isBack : ∀ row ∈ back, kind row = false)
    (isFront' : ∀ row ∈ front', kind row = true) (isBack' : ∀ row ∈ back', kind row = false)
    (same : front ++ back = front' ++ back') : front = front' ∧ back = back' := by
  have only {first second : List β} (yes : ∀ row ∈ first, kind row = true)
      (no : ∀ row ∈ second, kind row = false) : (first ++ second).filter kind = first := by
    rw [List.filter_append, List.filter_eq_self.mpr yes,
      List.filter_eq_nil_iff.mpr fun row member => by simp [no row member], List.append_nil]
  have fronts : front = front' := by
    rw [← only isFront isBack, same, only isFront' isBack']
  subst fronts
  exact ⟨rfl, List.append_cancel_left same⟩

section

variable {β : Type} {width : Nat} {rows rows' : List (List β)}

theorem map_length_of_width (size : ∀ row ∈ rows, row.length = width) :
    rows.map List.length = List.replicate rows.length width := by
  rw [List.eq_replicate_iff]
  refine ⟨List.length_map _, fun n member => ?_⟩
  obtain ⟨row, listed, rfl⟩ := List.mem_map.mp member
  exact size row listed

theorem length_flatten_of_width (size : ∀ row ∈ rows, row.length = width) :
    rows.flatten.length = rows.length * width := by
  rw [List.length_flatten, map_length_of_width size, List.sum_replicate_nat]

theorem flatten_injective_of_width (positive : 0 < width)
    (size : ∀ row ∈ rows, row.length = width) (size' : ∀ row ∈ rows', row.length = width)
    (same : rows.flatten = rows'.flatten) : rows = rows' := by
  have total := congrArg List.length same
  rw [length_flatten_of_width size, length_flatten_of_width size'] at total
  have count : rows.length = rows'.length := Nat.eq_of_mul_eq_mul_right positive total
  rw [List.eq_iff_flatten_eq, map_length_of_width size, map_length_of_width size', count]
  exact ⟨same, rfl⟩

end

/-- What is determined by the record of every element is determined by all records. -/
theorem map_eq_of_map_eq {β γ δ : Type} {write : β → γ} {read : β → δ} {list list' : List β}
    (determined : ∀ a ∈ list, ∀ b ∈ list', write a = write b → read a = read b)
    (same : list.map write = list'.map write) : list.map read = list'.map read := by
  induction list generalizing list' with
  | nil =>
    cases list' with
    | nil => rfl
    | cons b list' => cases same
  | cons a list ih =>
    cases list' with
    | nil => cases same
    | cons b list' =>
      obtain ⟨first, rest⟩ := List.cons.inj same
      rw [List.map_cons, List.map_cons,
        determined a List.mem_cons_self b List.mem_cons_self first, ih (fun c inC d inD =>
          determined c (.tail _ inC) d (.tail _ inD)) rest]

end Framing
