import SshClient.Control.Simulation
import SshClient.Common.Encoding

/-!
# Readers on a machine that checks nothing

The readers of the other modules stop with a fault where an unsigned difference would wrap
or an access would leave the vector. Here nothing is checked. Sizes and cursors are words
modulo 2^64, a difference wraps, and an index outside the vector finds whatever byte stands
there in memory. Every use that a parser makes of its vector is entered in a log: each
value that the cursor takes, each difference `payload.size() - position`, each index, and
each range that is copied.

A log is disciplined when all of these lie within the vector and the cursor has not gone
back within one buffer. A program on the machine that starts inside its vector and a
checked program that starts at the same place do the same, and the log stays disciplined:
each operation of the machine has one rule that says so.
-/

namespace SshClient.Memory

open Control

/-- The number of values of `std::size_t`. The unifier must not count up to it. -/
@[irreducible] def wordCount : Nat := 2 ^ 64

/-- The vectors that a parser can have in hand at the same time. -/
inductive Buffer where
  | payload
  | serverHostKey
  | signature
  deriving DecidableEq, Repr

/-- The order in which a parser turns to them. -/
def Buffer.rank : Buffer → Nat
  | .payload => 0
  | .serverHostKey => 1
  | .signature => 2

/-- A byte vector in memory: its size is a machine word, and `beyond` is what an index
outside of it would find. -/
structure Vector (name : Buffer) where
  bytes : Bytes
  fits : bytes.length < wordCount
  beyond : Nat → UInt8

/-- One use of a vector. -/
inductive Access where
  /-- The cursor takes this value. -/
  | cursor (position : Nat)
  /-- `payload.size() - position`. -/
  | difference (position : Nat)
  /-- `payload[i]`. -/
  | index (i : Nat)
  /-- The range of `count` bytes from `first` is copied. -/
  | copy (first count : Nat)
  deriving DecidableEq, Repr

structure Entry where
  buffer : Buffer
  size : Nat
  access : Access
  deriving DecidableEq, Repr

/-- The cursor of a parser and the log of what it has done. -/
structure Trail where
  position : Nat := 0
  log : List Entry := []
  deriving DecidableEq, Repr

section Operations

variable {name : Buffer}

/-- `payload.size()`. -/
def Vector.size (payload : Vector name) : Nat := payload.bytes.length

/-- The byte in memory at an offset from the start of the vector. -/
def Vector.cell (payload : Vector name) (i : Nat) : UInt8 :=
  payload.bytes[i]?.getD (payload.beyond i)

def note (payload : Vector name) (access : Access) : Exec Trail Unit :=
  modify fun t => { t with log := t.log ++ [⟨name, payload.size, access⟩] }

/-- The current value of `position`. -/
def cursor : Exec Trail Nat := do
  let t ← get
  return t.position

/-- `position = value;` -/
def place (payload : Vector name) (value : Nat) : Exec Trail Unit := do
  modify fun t => { t with position := value }
  note payload (.cursor value)

/-- `position += count;` -/
def advance (payload : Vector name) (count : Nat) : Exec Trail Unit := do
  let position ← cursor
  place payload ((position + count) % wordCount)

/-- `payload.size() - position`, which wraps. -/
def remaining (payload : Vector name) : Exec Trail Nat := do
  let position ← cursor
  note payload (.difference position)
  return (payload.size + wordCount - position) % wordCount

/-- `payload[i]`. -/
def index (payload : Vector name) (i : Nat) : Exec Trail UInt8 := do
  note payload (.index i)
  return payload.cell i

/-- `std::copy_n(payload.begin() + first, count, …)`. -/
def copyN (payload : Vector name) (first count : Nat) : Exec Trail Bytes := do
  note payload (.copy first count)
  return (List.range count).map fun k => payload.cell ((first + k) % wordCount)

/-- The range from `payload.begin() + first` to `payload.begin() + last`. -/
def copyBetween (payload : Vector name) (first last : Nat) : Exec Trail Bytes :=
  copyN payload first ((last + wordCount - first) % wordCount)

end Operations

/-! ### The readers of the client -/

section Readers

variable {name : Buffer}

def readString (payload : Vector name) : Exec Trail Bytes := do
  let position ← cursor
  failIf (position > payload.size) (error "Expected SSH string length")
  let left ← remaining payload
  failIf (left < uint32Bytes) (error "Expected SSH string length")
  let lengthBytes ← copyN payload position uint32Bytes
  let length := (decodeUint32 lengthBytes).toNat
  advance payload uint32Bytes
  let position ← cursor
  failIf (position > payload.size) (error "Expected SSH string bytes")
  let left ← remaining payload
  failIf (left < length) (error "Expected SSH string bytes")
  let result ← copyBetween payload position ((position + length) % wordCount)
  advance payload length
  return result

def readUint32 (payload : Vector name) : Exec Trail UInt32 := do
  let position ← cursor
  failIf (position > payload.size) (error "No bytes remain")
  let left ← remaining payload
  failIf (left < uint32Bytes) (error "Expected 4 bytes")
  let bytes ← copyN payload position uint32Bytes
  advance payload uint32Bytes
  return decodeUint32 bytes

end Readers

/-! ### Discipline -/

/-- The entry stays within the vector: a difference does not wrap, and what is indexed or
copied exists. -/
def Entry.Within (e : Entry) : Prop :=
  match e.access with
  | .cursor position => position ≤ e.size
  | .difference position => position ≤ e.size
  | .index i => i < e.size
  | .copy first count => first + count ≤ e.size

/-- The cursor is not moved back from the first entry to the second. -/
def Forward (e e' : Entry) : Prop :=
  ∀ p p', e.buffer = e'.buffer → e.access = .cursor p → e'.access = .cursor p' → p ≤ p'

structure Disciplined (log : List Entry) : Prop where
  within : ∀ e ∈ log, e.Within
  forward : log.Pairwise Forward

/-- The cursor of the vector is at `p`, inside of it, and everything so far is in order. -/
structure At {name : Buffer} (payload : Vector name) (t : Trail) (p : Nat) : Prop where
  position : t.position = p
  inside : p ≤ payload.bytes.length
  disciplined : Disciplined t.log
  behind : ∀ e ∈ t.log, e.buffer = name → ∀ q, e.access = .cursor q → q ≤ p
  upTo : ∀ e ∈ t.log, e.buffer.rank ≤ name.rank

/-- The cursor has not been used on this vector, and everything so far is in order. -/
structure Fresh (name : Buffer) (t : Trail) : Prop where
  disciplined : Disciplined t.log
  unused : ∀ e ∈ t.log, e.buffer = name → ∀ q, e.access ≠ .cursor q
  upTo : ∀ e ∈ t.log, e.buffer.rank ≤ name.rank

theorem disciplined_nil : Disciplined [] := ⟨by simp, .nil⟩

theorem Disciplined.snoc {log : List Entry} {e : Entry} (h : Disciplined log) (within : e.Within)
    (forward : ∀ d ∈ log, Forward d e) : Disciplined (log ++ [e]) := by
  refine ⟨?_, ?_⟩
  · intro d hd
    rcases List.mem_append.mp hd with hd | hd
    · exact h.within d hd
    · rw [List.mem_singleton.mp hd]
      exact within
  · rw [List.pairwise_append]
    refine ⟨h.forward, List.pairwise_singleton _ _, ?_⟩
    intro d hd d' hd'
    rw [List.mem_singleton.mp hd']
    exact forward d hd

/-- An entry that does not move the cursor. -/
theorem Disciplined.still {log : List Entry} {e : Entry} (h : Disciplined log)
    (within : e.Within) (still : ∀ q, e.access ≠ .cursor q) : Disciplined (log ++ [e]) := by
  refine h.snoc within ?_
  intro d _ q q' _ _ heq
  exact absurd heq (still q')

theorem fresh_nil (name : Buffer) : Fresh name {} := ⟨disciplined_nil, by simp, by simp⟩

/-- What has only been used on earlier vectors is fresh for the next one. -/
theorem fresh_next {name next : Buffer} {t : Trail} (disciplined : Disciplined t.log)
    (upTo : ∀ e ∈ t.log, e.buffer.rank ≤ name.rank) (later : name.rank < next.rank) :
    Fresh next t := by
  refine ⟨disciplined, ?_, ?_⟩
  · intro e he hnext
    have hrank := upTo e he
    rw [hnext] at hrank
    omega
  · intro e he
    exact Nat.le_of_lt (Nat.lt_of_le_of_lt (upTo e he) later)

/-- Every entry so far, and one more for the vector in hand. -/
theorem upTo_snoc {name : Buffer} {log : List Entry} {size : Nat} {access : Access}
    (h : ∀ e ∈ log, e.buffer.rank ≤ name.rank) :
    ∀ e ∈ log ++ [⟨name, size, access⟩], e.buffer.rank ≤ name.rank := by
  intro e he
  rcases List.mem_append.mp he with he | he
  · exact h e he
  · rw [List.mem_singleton.mp he]

/-! ### One rule for each operation -/

section Rules

variable {name : Buffer} {payload : Vector name} {t : Trail} {p : Nat}

/-- A difference that does not wrap is the true one. -/
theorem word_difference {a b : Nat} (ordered : b ≤ a) (fits : a < wordCount) :
    (a + wordCount - b) % wordCount = a - b := by
  have hsum : a + wordCount - b = a - b + wordCount := by omega
  rw [hsum, Nat.add_mod_right]
  exact Nat.mod_eq_of_lt (by omega)

theorem At.noted {access : Access} (h : At payload t p)
    (within : Entry.Within ⟨name, payload.size, access⟩) (still : ∀ q, access ≠ .cursor q) :
    At payload { t with log := t.log ++ [⟨name, payload.size, access⟩] } p := by
  refine ⟨h.position, h.inside, h.disciplined.still within still, ?_, upTo_snoc h.upTo⟩
  intro e he hname q hq
  rcases List.mem_append.mp he with he | he
  · exact h.behind e he hname q hq
  · rw [List.mem_singleton.mp he] at hq
    exact absurd hq (still q)

theorem Fresh.noted {access : Access} (h : Fresh name t)
    (within : Entry.Within ⟨name, payload.size, access⟩) (still : ∀ q, access ≠ .cursor q) :
    Fresh name { t with log := t.log ++ [⟨name, payload.size, access⟩] } := by
  refine ⟨h.disciplined.still within still, ?_, upTo_snoc h.upTo⟩
  intro e he hname q
  rcases List.mem_append.mp he with he | he
  · exact h.unused e he hname q
  · rw [List.mem_singleton.mp he]
    exact still q

/-- The cursor is placed no further back than where it has been on this vector. -/
theorem at_placed {q : Nat} (disciplined : Disciplined t.log) (inside : q ≤ payload.bytes.length)
    (behind : ∀ e ∈ t.log, e.buffer = name → ∀ r, e.access = .cursor r → r ≤ q)
    (upTo : ∀ e ∈ t.log, e.buffer.rank ≤ name.rank) :
    At payload { position := q, log := t.log ++ [⟨name, payload.size, .cursor q⟩] } q := by
  refine ⟨rfl, inside, disciplined.snoc inside ?_, ?_, upTo_snoc upTo⟩
  · intro d hd r r' hbuffer hr hr'
    cases hr'
    exact behind d hd hbuffer r hr
  · intro e he hname r hr
    rcases List.mem_append.mp he with he | he
    · exact behind e he hname r hr
    · rw [List.mem_singleton.mp he] at hr
      cases hr
      exact Nat.le_refl q

theorem At.cursor (h : At payload t p) : Memory.cursor.run t = .ok p t := by
  have hrun : Memory.cursor.run t = .ok t.position t := rfl
  rw [hrun, h.position]

theorem Fresh.place (payload : Vector name) {q : Nat} (h : Fresh name t)
    (inside : q ≤ payload.bytes.length) :
    ∃ t', (place payload q).run t = .ok () t' ∧ At payload t' q :=
  ⟨_, rfl, at_placed h.disciplined inside
    (fun e he hname r hr => absurd hr (h.unused e he hname r)) h.upTo⟩

theorem At.advance {count : Nat} (h : At payload t p) (inside : p + count ≤ payload.bytes.length) :
    ∃ t', (advance payload count).run t = .ok () t' ∧ At payload t' (p + count) := by
  have hfits := payload.fits
  have hword : (t.position + count) % wordCount = p + count := by
    rw [h.position]
    exact Nat.mod_eq_of_lt (by omega)
  have hbehind : ∀ e ∈ t.log, e.buffer = name → ∀ r, e.access = .cursor r → r ≤ p + count := by
    intro e he hname r hr
    exact Nat.le_add_right_of_le (h.behind e he hname r hr)
  refine ⟨_, rfl, ?_⟩
  rw [hword]
  exact at_placed h.disciplined inside hbehind h.upTo

theorem At.remaining (h : At payload t p) :
    ∃ t', (remaining payload).run t = .ok (payload.bytes.length - p) t' ∧ At payload t' p := by
  have hword : (payload.size + wordCount - t.position) % wordCount = payload.bytes.length - p := by
    rw [h.position]
    exact word_difference h.inside payload.fits
  refine ⟨_, congrArg (EStateM.Result.ok · _) hword, h.noted ?_ (by simp)⟩
  show t.position ≤ payload.size
  rw [h.position]
  exact h.inside

theorem At.index {i : Nat} (h : At payload t p) (inside : i < payload.bytes.length) :
    ∃ b t', (index payload i).run t = .ok b t' ∧ payload.bytes[i]? = some b ∧ At payload t' p := by
  refine ⟨payload.bytes[i], _, ?_, List.getElem?_eq_getElem inside,
    h.noted (show Entry.Within ⟨name, payload.size, .index i⟩ from inside) (by simp)⟩
  have hcell : payload.cell i = payload.bytes[i] := by
    rw [Vector.cell, List.getElem?_eq_getElem inside, Option.getD_some]
  exact congrArg (EStateM.Result.ok · _) hcell

/-- Inside the vector the cells are its bytes. -/
theorem cells_eq {first count : Nat} (inside : first + count ≤ payload.bytes.length) :
    ((List.range count).map fun k => payload.cell ((first + k) % wordCount)) =
      (payload.bytes.drop first).take count := by
  have hfits := payload.fits
  apply List.ext_getElem
  · rw [List.length_map, List.length_range, List.length_take, List.length_drop]
    omega
  · intro k hk hk'
    rw [List.length_map, List.length_range] at hk
    have hword : (first + k) % wordCount = first + k := Nat.mod_eq_of_lt (by omega)
    rw [List.getElem_map, List.getElem_range, hword, List.getElem_take, List.getElem_drop,
      Vector.cell, List.getElem?_eq_getElem (by omega), Option.getD_some]

theorem At.copyN {first count : Nat} (h : At payload t p)
    (inside : first + count ≤ payload.bytes.length) :
    ∃ t', (copyN payload first count).run t =
        .ok ((payload.bytes.drop first).take count) t' ∧ At payload t' p :=
  ⟨_, congrArg (EStateM.Result.ok · _) (cells_eq inside), h.noted inside (by simp)⟩

theorem At.copyBetween {first last : Nat} (h : At payload t p) (ordered : first ≤ last)
    (inside : last ≤ payload.bytes.length) :
    ∃ t', (copyBetween payload first last).run t =
        .ok ((payload.bytes.drop first).take (last - first)) t' ∧ At payload t' p := by
  unfold Memory.copyBetween
  rw [word_difference ordered (Nat.lt_of_le_of_lt inside payload.fits)]
  exact h.copyN (by omega)

end Rules

/-! ### The machine and the checked programs side by side -/

section Steps

variable {name : Buffer} {payload : Vector name} {t : Trail} {p : Nat} {α : Type}
variable {S : Trail → Nat → Prop}

theorem step_cursor {f : Nat → Exec Trail α} {g : Nat → Exec Nat α} (h : At payload t p)
    (next : MatchingResult S ((f p).run t) ((g p).run p)) :
    MatchingResult S ((cursor >>= f).run t) ((get >>= g).run p) :=
  matching_of_ok h.cursor rfl next

/-- The machine looks at its cursor where the other program still knows the value. -/
theorem step_cursor_alone {τ : Type} {S : Trail → τ → Prop} {f : Nat → Exec Trail α}
    {r : EStateM.Result Stop τ α} (h : At payload t p) (next : MatchingResult S ((f p).run t) r) :
    MatchingResult S ((cursor >>= f).run t) r := by
  rw [EStateM.run_bind, h.cursor]
  exact next

theorem step_remaining {f : Nat → Exec Trail α} {g : Nat → Exec Nat α} (h : At payload t p)
    (next : ∀ t', At payload t' p → MatchingResult S
      ((f (payload.bytes.length - p)).run t') ((g (payload.bytes.length - p)).run p)) :
    MatchingResult S ((remaining payload >>= f).run t)
      ((sizeSub payload.bytes.length p >>= g).run p) := by
  obtain ⟨t', hrun, hat⟩ := h.remaining
  refine matching_of_ok hrun ?_ (next t' hat)
  simp only [sizeSub, h.inside, if_true]
  rfl

theorem step_index {i : Nat} {f : UInt8 → Exec Trail α} {g : UInt8 → Exec Nat α}
    (h : At payload t p) (inside : i < payload.bytes.length)
    (next : ∀ b t', At payload t' p → MatchingResult S ((f b).run t') ((g b).run p)) :
    MatchingResult S ((index payload i >>= f).run t) ((byteAt payload.bytes i >>= g).run p) := by
  obtain ⟨b, t', hrun, hb, hat⟩ := h.index inside
  refine matching_of_ok hrun ?_ (next b t' hat)
  simp only [byteAt, hb]
  rfl

theorem copyRange_run {first count : Nat} (inside : first + count ≤ payload.bytes.length) :
    (copyRange payload.bytes first count : Exec Nat Bytes).run p =
      .ok ((payload.bytes.drop first).take count) p := by
  simp only [copyRange, inside, if_true]
  rfl

theorem step_copyN {first count : Nat} {f : Bytes → Exec Trail α} {g : Bytes → Exec Nat α}
    (h : At payload t p) (inside : first + count ≤ payload.bytes.length)
    (next : ∀ bytes t', At payload t' p → MatchingResult S ((f bytes).run t') ((g bytes).run p)) :
    MatchingResult S ((copyN payload first count >>= f).run t)
      ((copyRange payload.bytes first count >>= g).run p) := by
  obtain ⟨t', hrun, hat⟩ := h.copyN inside
  exact matching_of_ok hrun (copyRange_run inside) (next _ t' hat)

/-- The end of the range is a word, and the range is the one that the count says. -/
theorem step_copyBetween {first count : Nat} {f : Bytes → Exec Trail α} {g : Bytes → Exec Nat α}
    (h : At payload t p) (inside : first + count ≤ payload.bytes.length)
    (next : ∀ bytes t', At payload t' p → MatchingResult S ((f bytes).run t') ((g bytes).run p)) :
    MatchingResult S ((copyBetween payload first ((first + count) % wordCount) >>= f).run t)
      ((copyRange payload.bytes first count >>= g).run p) := by
  have hword : (first + count) % wordCount = first + count :=
    Nat.mod_eq_of_lt (Nat.lt_of_le_of_lt inside payload.fits)
  obtain ⟨t', hrun, hat⟩ := h.copyBetween (Nat.le_add_right first count) inside
  rw [hword]
  rw [Nat.add_sub_cancel_left] at hrun
  exact matching_of_ok hrun (copyRange_run inside) (next _ t' hat)

/-- Everything from the cursor to the end. -/
theorem step_copyRest {f : Bytes → Exec Trail α} {g : Bytes → Exec Nat α} (h : At payload t p)
    (next : ∀ bytes t', At payload t' p → MatchingResult S ((f bytes).run t') ((g bytes).run p)) :
    MatchingResult S ((copyBetween payload p payload.size >>= f).run t)
      ((copyRange payload.bytes p (payload.bytes.length - p) >>= g).run p) := by
  have hinside : p + (payload.bytes.length - p) ≤ payload.bytes.length := by
    have := h.inside
    omega
  obtain ⟨t', hrun, hat⟩ := h.copyBetween h.inside (Nat.le_refl _)
  exact matching_of_ok hrun (copyRange_run hinside) (next _ t' hat)

theorem step_advance {count : Nat} {f : Unit → Exec Trail α} {g : PUnit → Exec Nat α}
    (h : At payload t p) (inside : p + count ≤ payload.bytes.length)
    (next : ∀ t', At payload t' (p + count) →
      MatchingResult S ((f ()).run t') ((g ⟨⟩).run (p + count))) :
    MatchingResult S ((advance payload count >>= f).run t) ((set (p + count) >>= g).run p) := by
  obtain ⟨t', hrun, hat⟩ := h.advance inside
  exact matching_of_ok hrun rfl (next t' hat)

end Steps

/-! ### The readers -/

section ReaderSimulation

variable {name : Buffer} (payload : Vector name)

theorem simulates_cursor : Simulates (At payload) cursor get := by
  intro t p h
  rw [h.cursor]
  exact ⟨rfl, h⟩

theorem simulates_readUint32 :
    Simulates (At payload) (readUint32 payload) (SshClient.readUint32 payload.bytes) := by
  intro t p h
  refine step_cursor h ?_
  refine matching_failIf h fun _ => ?_
  refine step_remaining h fun t h => ?_
  refine matching_failIf h fun hleft => ?_
  have hinside : p + uint32Bytes ≤ payload.bytes.length := by
    have := h.inside
    omega
  refine step_copyN h hinside fun bytes t h => ?_
  refine step_advance h hinside fun t h => ?_
  exact ⟨rfl, h⟩

theorem simulates_readString :
    Simulates (At payload) (readString payload) (SshClient.readString payload.bytes) := by
  intro t p h
  refine step_cursor h ?_
  refine matching_failIf h fun _ => ?_
  refine step_remaining h fun t h => ?_
  refine matching_failIf h fun hleft => ?_
  have hinside : p + uint32Bytes ≤ payload.bytes.length := by
    have := h.inside
    omega
  refine step_copyN h hinside fun lengthBytes t h => ?_
  refine step_advance h hinside fun t h => ?_
  -- The length is whatever the peer has written there; the second check bounds it.
  refine step_cursor h ?_
  refine matching_failIf h fun _ => ?_
  refine step_remaining h fun t h => ?_
  refine matching_failIf h fun hlength => ?_
  have hstring : p + uint32Bytes + (decodeUint32 lengthBytes).toNat ≤ payload.bytes.length := by
    omega
  refine step_copyBetween h hstring fun result t h => ?_
  refine step_advance h hstring fun t h => ?_
  exact ⟨rfl, h⟩

end ReaderSimulation

end SshClient.Memory
