import Mathlib.Data.List.Basic

/-! # Reading frames from a stream

A reader of a byte stream sees what has arrived so far. It waits while that is too little,
and otherwise ends with an error or returns a value and leaves the rest unread
(`Streams.Read`). A reader that never goes back on an answer when more arrives is
`Streams.Incremental`; a piece of input from which it returns a value, whatever follows, is
a `Streams.Frame` of that value. `Streams.Holds` says that a stream consists of the frames of a
list of values and a tail.

A connection hands out its bytes in pieces of any size and may transform each by its position
(`Streams.Source`). A program that reads whole counts of bytes (`Streams.Reader`) does not
notice: it does what it would do on the bytes at once (`Streams.Reader.run_eq_none`,
`Streams.Reader.run_eq_some`), and reading in a loop gives the values of the frames in order
(`Streams.Reader.loop_of_holds`).
-/

namespace Streams

variable {α β γ ε : Type}

/-- What a reader makes of the input that has arrived; `none` while it waits for more. -/
abbrev Read (β ε α : Type) := List β → Option (Except ε (α × List β))

/-- Reads the given number of symbols. -/
def full (n : Nat) : Read β ε (List β) := fun input =>
  if input.length < n then none else some (.ok (input.take n, input.drop n))

/-- Reads nothing. -/
def lift (result : Except ε α) : Read β ε α := fun input =>
  some (result.map fun a => (a, input))

/-- One reader after another. -/
def andThen (read : Read β ε α) (next : α → Read β ε γ) : Read β ε γ := fun input =>
  match read input with
  | none => none
  | some (.error e) => some (.error e)
  | some (.ok (a, rest)) => next a rest

theorem andThen_assoc {δ : Type} (read : Read β ε α) (next : α → Read β ε γ)
    (last : γ → Read β ε δ) :
    andThen (andThen read next) last = andThen read fun a => andThen (next a) last := by
  funext input
  rw [andThen, andThen, andThen]
  cases read input with
  | none => rfl
  | some answer => cases answer <;> rfl

theorem andThen_ok (read : Read β ε α) : andThen read (fun a => lift (.ok a)) = read := by
  funext input
  rw [andThen]
  cases read input with
  | none => rfl
  | some answer => cases answer <;> rfl

theorem lift_eq_ok {result : Except ε α} {input rest : List β} {a : α}
    (answer : lift result input = some (.ok (a, rest))) : result = .ok a := by
  cases result with
  | error e => cases answer
  | ok other => cases answer; rfl

/-- Input that arrives later does not change an answer; it is left unread. -/
def Incremental (read : Read β ε α) : Prop :=
  ∀ input later, ∀ result ∈ read input,
    read (input ++ later) = some (result.map fun (a, rest) => (a, rest ++ later))

/-- The reader takes the value from these symbols, whatever follows them. -/
def Frame (read : Read β ε α) (a : α) (symbols : List β) : Prop :=
  ∀ rest, read (symbols ++ rest) = some (.ok (a, rest))

/-! ## Readers built from smaller ones -/

theorem Incremental.full (n : Nat) : Incremental (full n : Read β ε (List β)) := by
  intro input later result answered
  rw [Streams.full] at answered ⊢
  split at answered
  · cases answered
  · next enough =>
    obtain rfl := Option.mem_some.mp answered
    have enough : n ≤ input.length := Nat.le_of_not_lt enough
    rw [if_neg (by rw [List.length_append]; omega), List.take_append_of_le_length enough,
      List.drop_append_of_le_length enough]
    rfl

theorem Incremental.lift (result : Except ε α) : Incremental (lift result : Read β ε α) := by
  intro input later answer answered
  obtain rfl := Option.mem_some.mp answered
  cases result <;> rfl

theorem Incremental.andThen {read : Read β ε α} {next : α → Read β ε γ}
    (first : Incremental read) (second : ∀ a, Incremental (next a)) :
    Incremental (andThen read next) := by
  intro input later result answered
  rw [Streams.andThen] at answered ⊢
  cases head : read input with
  | none => rw [head] at answered; cases answered
  | some answer =>
    rw [head] at answered
    rw [first input later answer head]
    cases answer with
    | error e => obtain rfl := Option.mem_some.mp answered; rfl
    | ok parts => exact second parts.1 parts.2 later result answered

theorem Frame.full {symbols : List β} {n : Nat} (size : symbols.length = n) :
    Frame (full n : Read β ε (List β)) symbols symbols := by
  intro rest
  rw [Streams.full, if_neg (by rw [List.length_append]; omega), ← size, List.take_left,
    List.drop_left]

theorem Frame.lift (a : α) : Frame (lift (.ok a) : Read β ε α) a [] :=
  fun _ => rfl

theorem Frame.andThen {read : Read β ε α} {next : α → Read β ε γ} {a : α} {c : γ}
    {front back : List β} (first : Frame read a front) (second : Frame (next a) c back) :
    Frame (andThen read next) c (front ++ back) := by
  intro rest
  rw [Streams.andThen, List.append_assoc, first (back ++ rest)]
  exact second rest

theorem Frame.waits {read : Read β ε α} (incremental : Incremental read) {a : α}
    {front back : List β} (frame : Frame read a (front ++ back)) (missing : back ≠ []) :
    read front = none := by
  cases early : read front with
  | none => rfl
  | some result =>
    have late := incremental front back result early
    rw [← List.append_nil (front ++ back), frame []] at late
    cases result with
    | error e => cases late
    | ok parts =>
      injection late with late
      injection late with late
      exact (missing (List.append_eq_nil_iff.mp (congrArg Prod.snd late).symm).2).elim

/-! ## Streams of frames -/

/-- The stream consists of a frame for each of the values, in order, and the tail. -/
inductive Holds (read : Read β ε α) (tail : List β) : List α → List β → Prop
  | done : Holds read tail [] tail
  | frame {a : α} {values : List α} {symbols rest : List β} :
      Frame read a symbols → Holds read tail values rest →
        Holds read tail (a :: values) (symbols ++ rest)

namespace Holds

variable {read : Read β ε α} {tail : List β} {values : List α} {stream : List β}

theorem append_tail (holds : Holds read [] values stream) (more : List β) :
    Holds read more values (stream ++ more) := by
  induction holds with
  | done => exact .done
  | frame whole _ ih => rw [List.append_assoc]; exact .frame whole ih

theorem append (holds : Holds read [] values stream) {a : α} {symbols : List β}
    (whole : Frame read a symbols) : Holds read [] (values ++ [a]) (stream ++ symbols) := by
  induction holds with
  | done =>
    rw [List.nil_append, List.nil_append, ← List.append_nil symbols]
    exact .frame whole .done
  | frame first _ ih => rw [List.append_assoc]; exact .frame first ih

/-- The reader waits at the tail, and before it takes off the first frame. -/
theorem next (holds : Holds read tail values stream) (waiting : read tail = none) :
    (values = [] ∧ read stream = none) ∨
      ∃ a others rest, values = a :: others ∧ read stream = some (.ok (a, rest)) ∧
        Holds read tail others rest := by
  cases holds with
  | done => exact .inl ⟨rfl, waiting⟩
  | frame whole others => exact .inr ⟨_, _, _, rfl, whole _, others⟩

theorem length_le (silent : read [] = none) (holds : Holds read tail values stream) :
    values.length ≤ stream.length := by
  induction holds with
  | done => exact Nat.zero_le _
  | @frame a _ symbols _ whole _ ih =>
    have some : symbols ≠ [] := by
      rintro rfl
      have answer := whole []
      rw [List.append_nil, silent] at answer
      cases answer
    have size := List.length_pos_iff.mpr some
    rw [List.length_cons, List.length_append]
    omega

end Holds

/-! ## Connections that hand out pieces -/

/-- The pieces that the reads of a connection are going to return, and how many symbols it has
handed out. -/
structure Source (β : Type) where
  pieces : List (List β)
  pos : Nat

/-- Symbols transformed by their positions, the first of which is given. -/
def decoded (f : Nat → β → β) (pos : Nat) (symbols : List β) : List β :=
  symbols.mapIdx fun i b => f (pos + i) b

@[simp] theorem length_decoded (f : Nat → β → β) (pos : Nat) (symbols : List β) :
    (decoded f pos symbols).length = symbols.length :=
  List.length_mapIdx

theorem decoded_id (pos : Nat) (symbols : List β) :
    decoded (fun _ b => b) pos symbols = symbols := by
  apply List.ext_getElem
  · exact length_decoded _ _ _
  · intro i _ _
    simp [decoded]

theorem decoded_append (f : Nat → β → β) (pos : Nat) (front back : List β) :
    decoded f pos (front ++ back) = decoded f pos front ++ decoded f (pos + front.length) back := by
  simp only [decoded, List.mapIdx_append, Nat.add_assoc, Nat.add_comm front.length]

namespace Source

variable (f : Nat → β → β)

/-- What the connection is going to hand out. -/
def content (s : Source β) : List β :=
  decoded f s.pos s.pieces.flatten

/-- One read into a buffer of the given size: at most one piece. -/
def read (n : Nat) (s : Source β) : Option (List β × Source β) :=
  match s.pieces with
  | [] => none
  | piece :: rest =>
    if n < piece.length then
      some (decoded f s.pos (piece.take n), ⟨piece.drop n :: rest, s.pos + n⟩)
    else some (decoded f s.pos piece, ⟨rest, s.pos + piece.length⟩)

/-- Reads until the buffer is full, with a bound on the number of reads. -/
def readFull : Nat → Nat → Source β → Option (List β × Source β)
  | _, 0, s => some ([], s)
  | 0, _ + 1, _ => none
  | reads + 1, n + 1, s =>
    match s.read f (n + 1) with
    | none => none
    | some (front, s) =>
      (readFull reads (n + 1 - front.length) s).map fun (back, s) => (front ++ back, s)

/-- `io.ReadFull`: the pieces bound the number of reads. -/
def full (n : Nat) (s : Source β) : Option (List β × Source β) :=
  s.readFull f s.pieces.length n

variable {f} {n reads : Nat} {s s' : Source β} {front : List β}

/-- A read takes the first symbols; unless it fills the buffer, it uses up a piece. -/
theorem read_eq_some (answer : s.read f n = some (front, s')) :
    s.content f = front ++ s'.content f ∧ front.length ≤ n ∧
      (front.length = n ∧ s'.pieces.length = s.pieces.length ∨
        s'.pieces.length < s.pieces.length) := by
  obtain ⟨pieces, pos⟩ := s
  cases pieces with
  | nil => cases answer
  | cons piece rest =>
    rw [read] at answer
    dsimp only at answer
    split at answer
    · next large =>
      have size : (piece.take n).length = n := by
        rw [List.length_take, Nat.min_eq_left (Nat.le_of_lt large)]
      cases answer
      refine ⟨?_, ?_, .inl ⟨?_, rfl⟩⟩
      · calc decoded f pos (piece ++ rest.flatten)
            = decoded f pos (piece.take n ++ (piece.drop n ++ rest.flatten)) := by
              rw [← List.append_assoc, List.take_append_drop]
          _ = _ := by rw [decoded_append, size]; rfl
      · rw [length_decoded]
        exact Nat.le_of_eq size
      · rw [length_decoded, size]
    · next small =>
      cases answer
      refine ⟨?_, ?_, .inr (Nat.lt_succ_self _)⟩
      · rw [content, content, List.flatten_cons, decoded_append]
      · rw [length_decoded]
        exact Nat.le_of_not_lt small

theorem read_eq_none (waits : s.read f n = none) : s.content f = [] := by
  obtain ⟨pieces, pos⟩ := s
  cases pieces with
  | nil => rfl
  | cons piece rest =>
    rw [read] at waits
    dsimp only at waits
    split at waits <;> cases waits

theorem readFull_spec (bound : s.pieces.length ≤ reads) :
    (s.readFull f reads n = none → (s.content f).length < n) ∧
      ∀ symbols s', s.readFull f reads n = some (symbols, s') →
        s.content f = symbols ++ s'.content f ∧ symbols.length = n := by
  induction reads generalizing n s with
  | zero =>
    have empty : s.content f = [] := by
      rw [content, List.eq_nil_of_length_eq_zero (Nat.le_zero.mp bound)]
      rfl
    cases n with
    | zero => exact ⟨nofun, fun _ _ answer => by cases answer; exact ⟨rfl, rfl⟩⟩
    | succ n => exact ⟨fun _ => by rw [empty]; exact Nat.succ_pos n, nofun⟩
  | succ reads ih =>
    cases n with
    | zero => exact ⟨nofun, fun _ _ answer => by cases answer; exact ⟨rfl, rfl⟩⟩
    | succ n =>
      rw [readFull]
      cases first : s.read f (n + 1) with
      | none =>
        rw [read_eq_none first]
        exact ⟨fun _ => Nat.succ_pos n, nofun⟩
      | some answer =>
        obtain ⟨front, rest⟩ := answer
        obtain ⟨content, short, full | fewer⟩ := read_eq_some first
        · -- the buffer is full, so nothing more is read
          dsimp only
          rw [full.1, Nat.sub_self, readFull, content]
          refine ⟨nofun, fun symbols s' answer => ?_⟩
          cases answer
          rw [List.append_nil]
          exact ⟨rfl, full.1⟩
        · dsimp only
          rw [content, List.length_append]
          cases later : rest.readFull f reads (n + 1 - front.length) with
          | none =>
            have missing := (ih (show rest.pieces.length ≤ reads by omega)).1 later
            exact ⟨fun _ => by omega, nofun⟩
          | some answer =>
            obtain ⟨left, size⟩ :=
              (ih (show rest.pieces.length ≤ reads by omega)).2 _ _ later
            refine ⟨nofun, fun symbols s' answer => ?_⟩
            cases answer
            rw [left, List.append_assoc, List.length_append]
            exact ⟨rfl, by omega⟩

theorem full_spec (n : Nat) (s : Source β) :
    (s.full f n).map (fun (symbols, s') => (Except.ok (symbols, s'.content f) : Except ε _)) =
      Streams.full n (s.content f) := by
  have spec := @readFull_spec _ f n _ s (Nat.le_refl s.pieces.length)
  rw [Streams.full]
  cases answer : s.full f n with
  | none => rw [if_pos (spec.1 answer)]; rfl
  | some result =>
    obtain ⟨content, size⟩ := spec.2 _ _ answer
    rw [content, if_neg (by rw [List.length_append]; omega), ← size, List.take_left,
      List.drop_left]
    rfl

end Source

/-! ## Programs that read -/

/-- A program that reads whole counts of symbols. -/
inductive Reader (β ε α : Type)
  | done (result : Except ε α)
  | full (n : Nat) (next : List β → Reader β ε α)

namespace Reader

/-- What the program makes of the input that has arrived. -/
def read : Reader β ε α → Read β ε α
  | .done result => lift result
  | .full n next => Streams.andThen (Streams.full n) fun symbols => (next symbols).read

variable (f : Nat → β → β)

/-- The program on a connection. -/
def run : Reader β ε α → Source β → Option (Except ε (α × Source β))
  | .done result, s => some (result.map fun a => (a, s))
  | .full n next, s =>
    match s.full f n with
    | none => none
    | some (symbols, s) => (next symbols).run s

/-- The program again and again, at most so many times: the values until it waits, or the error
it ends with. -/
def loop (reader : Reader β ε α) : Nat → Source β → List α × Option ε
  | 0, _ => ([], none)
  | rounds + 1, s =>
    match reader.run f s with
    | none => ([], none)
    | some (.error e) => ([], some e)
    | some (.ok (a, s)) =>
      let (values, ending) := reader.loop rounds s
      (a :: values, ending)

variable {f}

/-- **Pieces do not matter.** On a connection the program does what it does on its content. -/
theorem run_spec (reader : Reader β ε α) (s : Source β) :
    (reader.run f s).map (Except.map fun (a, s') => (a, s'.content f)) =
      reader.read (s.content f) := by
  induction reader generalizing s with
  | done result => cases result <;> rfl
  | full n next ih =>
    have spec : (s.full f n).map (fun (symbols, s') => Except.ok (symbols, s'.content f)) =
        (Streams.full n (s.content f) : Option (Except ε _)) := Source.full_spec n s
    rw [run, read, andThen]
    cases answer : s.full f n with
    | none =>
      rw [answer] at spec
      rw [← spec]
      rfl
    | some result =>
      rw [answer] at spec
      rw [← spec]
      exact ih result.1 result.2

theorem run_eq_none {reader : Reader β ε α} {s : Source β}
    (waits : reader.read (s.content f) = none) : reader.run f s = none := by
  rw [← run_spec, Option.map_eq_none_iff] at waits
  exact waits

theorem run_eq_some {reader : Reader β ε α} {s : Source β} {a : α} {rest : List β}
    (answer : reader.read (s.content f) = some (.ok (a, rest))) :
    ∃ s', reader.run f s = some (.ok (a, s')) ∧ s'.content f = rest := by
  rw [← run_spec, Option.map_eq_some_iff] at answer
  obtain ⟨result, ran, same⟩ := answer
  cases result with
  | error e => cases same
  | ok parts =>
    cases same
    exact ⟨parts.2, ran, rfl⟩

/-- **Loops over frames.** A program in a loop returns the values of the frames on the
connection, in order, and then waits. -/
theorem loop_of_holds {reader : Reader β ε α} {tail : List β} (waits : reader.read tail = none)
    {values : List α} {s : Source β} (holds : Holds reader.read tail values (s.content f))
    {rounds : Nat} (enough : values.length < rounds) : reader.loop f rounds s = (values, none) := by
  induction rounds generalizing values s with
  | zero => exact (Nat.not_lt_zero _ enough).elim
  | succ rounds ih =>
    rw [loop]
    obtain ⟨rfl, silent⟩ | ⟨a, others, rest, rfl, taken, remaining⟩ := holds.next waits
    · rw [run_eq_none silent]
    · obtain ⟨s', ran, content⟩ := run_eq_some taken
      rw [ran]
      dsimp only
      rw [ih (by rwa [content]) (Nat.lt_of_succ_lt_succ enough)]

end Reader

end Streams
