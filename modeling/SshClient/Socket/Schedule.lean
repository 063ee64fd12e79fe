import SshClient.Socket

/-!
# Exact lengths under any schedule

The two loops of the socket as they stand in the client, with a cursor into a buffer of a
fixed length, and that they compute `readLoop` and `writeLoop`. What a call returns and
what it leaves depends on the bytes of the schedule and not on how they are cut.
-/

namespace SshClient.Socket

open Control

/-! ### The loops with their cursors -/

/-- `read(2)` for `count` bytes, at least one. The end of the stream stays where it is. -/
def read (count : Nat) : List ReadResult → Option (ReadResult × List ReadResult)
  | [] => none
  | .returned chunk :: rest =>
      if chunk = [] then some (.returned [], .returned [] :: rest)
      else if chunk.length ≤ count then some (.returned chunk, rest)
      else some (.returned (chunk.take count), .returned (chunk.drop count) :: rest)
  | result :: rest => some (result, rest)

/-- Store bytes in a buffer at an offset. -/
def store (dst : Bytes) (offset : Nat) (bytes : Bytes) : Bytes :=
  dst.take offset ++ bytes ++ dst.drop (offset + bytes.length)

/-- A call of `read` uses up a result of the script, or delivers bytes of a longer one. -/
theorem read_measure {count : Nat} {script rest : List ReadResult} {result : ReadResult}
    (h : read count script = some (result, rest)) :
    rest.length < script.length ∨
      rest.length = script.length ∧ ∃ bytes, result = .returned bytes ∧
        (bytes = [] ∨ bytes.length = count) := by
  cases script with
  | nil => cases h
  | cons first script =>
      cases first with
      | interrupted =>
          cases h
          exact .inl (by simp)
      | failed what =>
          cases h
          exact .inl (by simp)
      | returned chunk =>
          rw [read] at h
          split at h
          · cases h
            exact .inr ⟨rfl, [], rfl, .inl rfl⟩
          · split at h
            · cases h
              exact .inl (by simp)
            · cases h
              exact .inr ⟨rfl, _, rfl, .inr (by rw [List.length_take]; omega)⟩

/-- No more than the requested number of bytes is delivered. -/
theorem read_length {count : Nat} {script rest : List ReadResult} {bytes : Bytes}
    (h : read count script = some (.returned bytes, rest)) : bytes.length ≤ count := by
  cases script with
  | nil => cases h
  | cons first script =>
      cases first with
      | interrupted => cases h
      | failed what => cases h
      | returned chunk =>
          rw [read] at h
          split at h
          · cases h
            simp
          · split at h
            · cases h
              assumption
            · cases h
              rw [List.length_take]
              omega

/-- The loop of `readExact`: `received` of the `len` bytes at `dst` have been stored. -/
def readRounds (len received : Nat) (dst : Bytes) (script : List ReadResult) :
    Except Stop Bytes × List ReadResult :=
  if _hmore : received < len then
    match _hread : read (len - received) script with
    | none => (.error .blocked, [])
    | some (.returned bytes, rest) =>
        if _hpos : bytes.length > 0 then
          readRounds len (received + bytes.length) (store dst received bytes) rest
        else (.error (error "Connection closed"), rest)
    | some (.interrupted, rest) => readRounds len received dst rest
    | some (.failed what, rest) => (.error (.thrown what), rest)
  else (.ok dst, script)
termination_by script.length + (len - received)
decreasing_by
  · have := read_measure _hread
    simp at this
    omega
  · have := read_measure _hread
    simp at this
    omega

/-- One round of `readLoop` is one system call. -/
theorem readLoop_eq_read {need : Nat} (hneed : 0 < need) (script : List ReadResult) :
    readLoop script need =
      match read need script with
      | none => (.error .blocked, [])
      | some (.returned bytes, rest) =>
          if bytes.length > 0 then
            ((readLoop rest (need - bytes.length)).1.map (bytes ++ ·),
              (readLoop rest (need - bytes.length)).2)
          else (.error (error "Connection closed"), rest)
      | some (.interrupted, rest) => readLoop rest need
      | some (.failed what, rest) => (.error (.thrown what), rest) := by
  obtain ⟨need, rfl⟩ : ∃ n, need = n + 1 := ⟨need - 1, by omega⟩
  cases script with
  | nil => rfl
  | cons first script =>
      cases first with
      | interrupted => rfl
      | failed what => rfl
      | returned chunk =>
          rw [readLoop, read]
          by_cases hne : chunk = []
          · rw [if_pos hne, if_pos hne, hne]
            rfl
          · have hpos := List.length_pos_of_ne_nil hne
            rw [if_neg hne, if_neg hne]
            by_cases hle : chunk.length ≤ need + 1
            · rw [if_pos hle, if_pos hle]
              dsimp only
              rw [if_pos hpos]
            · have hlen : (chunk.take (need + 1)).length = need + 1 := by
                rw [List.length_take]
                omega
              rw [if_neg hle, if_neg hle]
              dsimp only
              rw [if_pos (by omega), hlen, Nat.sub_self, readLoop, Except.map, List.append_nil]

/-- The cursor loop fills its buffer with what `readLoop` reads. -/
theorem readRounds_eq {len received : Nat} {dst : Bytes} (hdst : dst.length = len)
    (hle : received ≤ len) (script : List ReadResult) :
    readRounds len received dst script =
      ((readLoop script (len - received)).1.map (dst.take received ++ ·),
        (readLoop script (len - received)).2) := by
  fun_induction readRounds len received dst script with
  | case1 received dst script hmore hread =>
      rw [readLoop_eq_read (by omega) script, hread]
      rfl
  | case2 received dst script hmore bytes rest hread hpos ih =>
      have hbound := read_length hread
      have hstored : (store dst received bytes).take (received + bytes.length) =
          dst.take received ++ bytes := by
        rw [store]
        exact List.take_left' (by rw [List.length_append, List.length_take]; omega)
      have hlength : (store dst received bytes).length = len := by
        simp only [store, List.length_append, List.length_take, List.length_drop]
        omega
      rw [ih hlength (by omega), readLoop_eq_read (by omega) script, hread, hstored]
      dsimp only
      rw [if_pos hpos, Nat.sub_add_eq]
      cases (readLoop rest (len - received - bytes.length)).1 with
      | ok tail => simp [Except.map]
      | error e => rfl
  | case3 received dst script hmore bytes rest hread hpos =>
      rw [readLoop_eq_read (by omega) script, hread]
      dsimp only
      rw [if_neg hpos]
      rfl
  | case4 received dst script hmore rest hread ih =>
      rw [ih hdst hle, readLoop_eq_read (by omega) script, hread]
  | case5 received dst script hmore what rest hread =>
      rw [readLoop_eq_read (by omega) script, hread]
      rfl
  | case6 received dst script hmore =>
      obtain rfl : received = len := by omega
      rw [Nat.sub_self, readLoop, Except.map, List.append_nil, List.take_of_length_le (by omega)]

/-- The loop of `writeExact`: `written` of the bytes at `src` have been taken. -/
def writeRounds (src : Bytes) (written : Nat) (script : List WriteResult) (emitted : Bytes) :
    Except Stop Unit × List WriteResult × Bytes :=
  if written < src.length then
    match script with
    | [] => (.ok (), [], emitted ++ src.drop written)
    | .accepted count :: rest =>
        let taken := min count (src.length - written)
        if taken > 0 then
          writeRounds src (written + taken) rest (emitted ++ (src.drop written).take taken)
        else (.error (error "Write returned zero"), rest, emitted)
    | .interrupted :: rest => writeRounds src written rest emitted
    | .failed what :: rest => (.error (.thrown what), rest, emitted)
  else (.ok (), script, emitted)

/-- The cursor loop writes what `writeLoop` writes of the bytes behind the cursor. -/
theorem writeRounds_eq (src : Bytes) (written : Nat) (script : List WriteResult)
    (emitted : Bytes) :
    writeRounds src written script emitted =
      ((writeLoop script (src.drop written)).1, (writeLoop script (src.drop written)).2.1,
        emitted ++ (writeLoop script (src.drop written)).2.2) := by
  induction script generalizing written emitted with
  | nil =>
      unfold writeRounds
      split
      · rename_i hmore
        obtain ⟨byte, bytes, hsrc⟩ := List.exists_cons_of_ne_nil
          (List.ne_nil_of_length_pos (l := src.drop written) (by rw [List.length_drop]; omega))
        rw [hsrc]
        rfl
      · rw [List.drop_of_length_le (by omega)]
        simp [writeLoop]
  | cons result rest ih =>
      unfold writeRounds
      split
      · rename_i hmore
        obtain ⟨byte, bytes, hsrc⟩ := List.exists_cons_of_ne_nil
          (List.ne_nil_of_length_pos (l := src.drop written) (by rw [List.length_drop]; omega))
        have hlength := congrArg List.length hsrc
        rw [List.length_drop, List.length_cons] at hlength
        cases result with
        | interrupted =>
            dsimp only
            rw [ih, hsrc]
            rfl
        | failed what =>
            rw [hsrc]
            simp [writeLoop]
        | accepted count =>
            cases count with
            | zero =>
                rw [hsrc]
                simp [writeLoop]
            | succ count =>
                -- The call takes what it is offered at most, and the cursor moves by as much.
                have hdrop : src.drop (written + min (count + 1) (src.length - written)) =
                    bytes.drop count := by
                  rw [← List.drop_drop, hsrc, hlength, Nat.add_min_add_right, List.drop_succ_cons,
                    ← List.drop_eq_drop_min]
                have htake : (src.drop written).take (min (count + 1) (src.length - written)) =
                    byte :: bytes.take count := by
                  rw [hsrc, hlength, Nat.add_min_add_right, List.take_succ_cons,
                    ← List.take_eq_take_min]
                dsimp only
                rw [if_pos (by omega), ih, hdrop, htake, hsrc, writeLoop]
                simp
      · rw [List.drop_of_length_le (by omega)]
        simp [writeLoop]

/-! ### Reading across the end of a part of the schedule -/

variable {front front' back : List ReadResult}

theorem Flowing.tail {result : ReadResult} {script : List ReadResult}
    (h : Flowing (result :: script)) : Flowing script :=
  fun r hr => h r (List.mem_cons_of_mem _ hr)

/-- A part that has too few bytes is used up, and the rest of them is read behind it. -/
theorem readLoop_short (flowing : Flowing front) (back : List ReadResult) {need : Nat}
    (hshort : (stream front).length < need) :
    readLoop (front ++ back) need =
      ((readLoop back (need - (stream front).length)).1.map (stream front ++ ·),
        (readLoop back (need - (stream front).length)).2) := by
  induction front generalizing need with
  | nil =>
      simp only [List.nil_append, stream, List.length_nil, Nat.sub_zero]
      cases hr : readLoop back need with
      | mk result rest => cases result <;> rfl
  | cons result front ih =>
      obtain ⟨need, rfl⟩ : ∃ n, need = n + 1 := ⟨need - 1, by omega⟩
      obtain rfl | ⟨chunk, rfl, hne⟩ := flowing result List.mem_cons_self
      · exact ih flowing.tail hshort
      · rw [stream, List.length_append] at hshort
        rw [List.cons_append, readLoop, if_neg hne, if_pos (by omega)]
        dsimp only
        rw [ih flowing.tail (by omega), stream, List.length_append, Nat.sub_sub]
        cases (readLoop back (need + 1 - (chunk.length + (stream front).length))).1 with
        | ok tail => simp [Except.map]
        | error e => rfl

/-- A part that has enough bytes is read alone. -/
theorem readLoop_enough (flowing : Flowing front) (back : List ReadResult) {need : Nat}
    (henough : need ≤ (stream front).length) :
    ∃ left, readLoop (front ++ back) need = (.ok ((stream front).take need), left ++ back) ∧
      stream left = (stream front).drop need ∧ Flowing left := by
  have hsplit := (List.take_append_drop need (stream front)).symm
  obtain ⟨left, hloop, hleft⟩ := readLoop_of_flowing flowing hsplit
  rw [List.length_take, Nat.min_eq_left henough] at hloop
  have hok : (readLoop front need).1 = .ok ((stream front).take need) := by rw [hloop]
  refine ⟨left, ?_, hleft⟩
  rw [readLoop_append back hok, hloop]

/-- Two schedules that cut the same bytes in their own way, with the same behind them. -/
def SameBytes (script script' : List ReadResult) : Prop :=
  ∃ front front' back, script = front ++ back ∧ script' = front' ++ back ∧
    Flowing front ∧ Flowing front' ∧ stream front = stream front'

theorem SameBytes.refl (script : List ReadResult) : SameBytes script script :=
  ⟨[], [], script, rfl, rfl, by simp [Flowing], by simp [Flowing], rfl⟩

/-- They are read with the same result, and are such schedules again afterwards. -/
theorem SameBytes.readLoop {script script' : List ReadResult} (h : SameBytes script script')
    (need : Nat) :
    (Socket.readLoop script need).1 = (Socket.readLoop script' need).1 ∧
      SameBytes (Socket.readLoop script need).2 (Socket.readLoop script' need).2 := by
  obtain ⟨front, front', back, rfl, rfl, flowing, flowing', hstream⟩ := h
  by_cases hshort : (stream front).length < need
  · rw [readLoop_short flowing back hshort, readLoop_short flowing' back (hstream ▸ hshort),
      hstream]
    exact ⟨rfl, .refl _⟩
  · have henough : need ≤ (stream front).length := Nat.le_of_not_lt hshort
    obtain ⟨left, hloop, hleft, hflow⟩ := readLoop_enough flowing back henough
    obtain ⟨left', hloop', hleft', hflow'⟩ :=
      readLoop_enough flowing' back (hstream ▸ henough)
    rw [hloop, hloop', hstream]
    exact ⟨rfl, left, left', back, rfl, rfl, hflow, hflow', by rw [hleft, hleft', hstream]⟩

/-! ### Writing -/

/-- The number of bytes that a schedule has agreed to take. -/
def capacity : List WriteResult → Nat
  | [] => 0
  | .accepted count :: rest => count + capacity rest
  | _ :: rest => capacity rest

theorem Lossless.tail {result : WriteResult} {script : List WriteResult}
    (h : Lossless (result :: script)) : Lossless script :=
  fun r hr => h r (List.mem_cons_of_mem _ hr)

theorem writeLoop_short {front : List WriteResult} (lossless : Lossless front)
    (back : List WriteResult) {bytes : Bytes} (hshort : capacity front < bytes.length) :
    writeLoop (front ++ back) bytes =
      ((writeLoop back (bytes.drop (capacity front))).1,
        (writeLoop back (bytes.drop (capacity front))).2.1,
        bytes.take (capacity front) ++ (writeLoop back (bytes.drop (capacity front))).2.2) := by
  induction front generalizing bytes with
  | nil => simp [capacity]
  | cons result front ih =>
      obtain ⟨byte, bytes, rfl⟩ := List.exists_cons_of_ne_nil
        (List.ne_nil_of_length_pos (Nat.zero_lt_of_lt hshort))
      obtain rfl | ⟨count, rfl⟩ := lossless result List.mem_cons_self
      · exact ih lossless.tail hshort
      · rw [capacity, List.length_cons] at hshort
        rw [List.cons_append, writeLoop, ih lossless.tail (by rw [List.length_drop]; omega),
          capacity, List.drop_drop, Nat.add_right_comm, List.drop_succ_cons, List.take_succ_cons,
          List.take_add]
        simp

theorem writeLoop_enough {front : List WriteResult} (lossless : Lossless front)
    (back : List WriteResult) {bytes : Bytes}
    (henough : bytes.length ≤ capacity front ∨ back = []) :
    ∃ left, writeLoop (front ++ back) bytes = (.ok (), left ++ back, bytes) ∧ Lossless left := by
  induction front generalizing bytes with
  | nil =>
      refine ⟨[], ?_, lossless⟩
      cases bytes with
      | nil => simp [writeLoop]
      | cons byte bytes =>
          obtain rfl : back = [] := henough.resolve_left (by simp [capacity])
          rfl
  | cons result front ih =>
      cases bytes with
      | nil => exact ⟨result :: front, by simp [writeLoop], lossless⟩
      | cons byte bytes =>
          obtain rfl | ⟨count, rfl⟩ := lossless result List.mem_cons_self
          · exact ih lossless.tail henough
          · rw [capacity, List.length_cons] at henough
            have htail : (bytes.drop count).length ≤ capacity front ∨ back = [] :=
              henough.imp_left fun h => by
                rw [List.length_drop]
                omega
            obtain ⟨left, hloop, hleft⟩ := ih lossless.tail htail
            refine ⟨left, ?_, hleft⟩
            rw [List.cons_append, writeLoop, hloop]
            simp

/-! ### The two calls -/

theorem readRounds_eq_readLoop {len : Nat} {dst : Bytes} (hdst : dst.length = len)
    (script : List ReadResult) : readRounds len 0 dst script = readLoop script len := by
  rw [readRounds_eq hdst (Nat.zero_le _)]
  cases h : readLoop script (len - 0) with
  | mk result rest => cases result <;> simp_all [Except.map]

theorem writeRounds_eq_writeLoop (src : Bytes) (script : List WriteResult) :
    writeRounds src 0 script [] = writeLoop script src := by
  rw [writeRounds_eq, List.drop_zero, List.nil_append]

/-- What a call makes of the reads that its loop has left. -/
def afterReads (s : Socket) : Except Stop Bytes × List ReadResult → EStateM.Result Stop Socket Bytes
  | (.ok bytes, reads) => .ok bytes { s with reads := reads }
  | (.error e, reads) => .error e { s with reads := reads }

theorem afterReads_error (s : Socket) {result : Except Stop Bytes × List ReadResult} {e : Stop}
    (h : result.1 = .error e) : ∃ t, afterReads s result = .error e t := by
  obtain ⟨outcome, reads⟩ := result
  obtain rfl : outcome = .error e := h
  exact ⟨_, rfl⟩

/-- What a call makes of the writes that its loop has left, and of the bytes taken. -/
def afterWrites (s : Socket) :
    Except Stop Unit × List WriteResult × Bytes → EStateM.Result Stop Socket Unit
  | (.ok _, writes, taken) => .ok () { s with writes := writes, written := s.written ++ taken }
  | (.error e, writes, taken) =>
      .error e { s with writes := writes, written := s.written ++ taken }

/-- `readExact` is the cursor loop on a buffer of its length, whatever the buffer held. -/
theorem readExact_eq_readRounds {len : Nat} {dst : Bytes} (hdst : dst.length = len) (s : Socket) :
    (readExact len).run s = afterReads s (readRounds len 0 dst s.reads) := by
  rw [readRounds_eq_readLoop hdst]
  rfl

theorem writeExact_eq_writeRounds (src : Bytes) (s : Socket) :
    (writeExact src).run s = afterWrites s (writeRounds src 0 s.writes []) := by
  rw [writeRounds_eq_writeLoop]
  rfl

/-- The next bytes are stored in order and the stream is left behind them. A stream that ends
or fails before is reported. -/
theorem readRounds_any_schedule {len : Nat} {dst : Bytes} (hdst : dst.length = len)
    (flowing : Flowing front) (back : List ReadResult) :
    (len ≤ (stream front).length → ∃ left,
      readRounds len 0 dst (front ++ back) = (.ok ((stream front).take len), left ++ back) ∧
        stream left = (stream front).drop len ∧ Flowing left) ∧
    ((stream front).length < len →
      (∀ rest, back = .returned [] :: rest →
        (readRounds len 0 dst (front ++ back)).1 = .error (error "Connection closed")) ∧
      ∀ what rest, back = .failed what :: rest →
        (readRounds len 0 dst (front ++ back)).1 = .error (.thrown what)) := by
  rw [readRounds_eq_readLoop hdst]
  refine ⟨readLoop_enough flowing back, fun hshort => ?_⟩
  rw [readLoop_short flowing back hshort]
  obtain ⟨need, hneed⟩ : ∃ n, len - (stream front).length = n + 1 :=
    ⟨len - (stream front).length - 1, by omega⟩
  rw [hneed]
  constructor
  · rintro rest rfl
    simp [readLoop, Except.map]
  · rintro what rest rfl
    simp [readLoop, Except.map]

/-- The bytes are emitted once each and in order. A failing write is reported, and what has
been taken before it stands in front of what was to follow. -/
theorem writeRounds_any_schedule (src : Bytes) {front : List WriteResult}
    (lossless : Lossless front) (back : List WriteResult) :
    (src.length ≤ capacity front ∨ back = [] → ∃ left,
      writeRounds src 0 (front ++ back) [] = (.ok (), left ++ back, src) ∧ Lossless left) ∧
    (capacity front < src.length →
      (∀ rest, back = .accepted 0 :: rest → writeRounds src 0 (front ++ back) [] =
        (.error (error "Write returned zero"), rest, src.take (capacity front))) ∧
      ∀ what rest, back = .failed what :: rest → writeRounds src 0 (front ++ back) [] =
        (.error (.thrown what), rest, src.take (capacity front))) := by
  rw [writeRounds_eq_writeLoop]
  refine ⟨writeLoop_enough lossless back, fun hshort => ?_⟩
  rw [writeLoop_short lossless back hshort]
  obtain ⟨byte, bytes, hdrop⟩ := List.exists_cons_of_ne_nil (List.ne_nil_of_length_pos
    (show 0 < (src.drop (capacity front)).length by rw [List.length_drop]; omega))
  rw [hdrop]
  constructor
  · rintro rest rfl
    simp [writeLoop]
  · rintro what rest rfl
    simp [writeLoop]

theorem readExact_any_schedule (s : Socket) (len : Nat) (flowing : Flowing front)
    (back : List ReadResult) :
    (len ≤ (stream front).length → ∃ left,
      (readExact len).run { s with reads := front ++ back } =
          .ok ((stream front).take len) { s with reads := left ++ back } ∧
        stream left = (stream front).drop len ∧ Flowing left) ∧
    ((stream front).length < len →
      (∀ rest, back = .returned [] :: rest → ∃ t,
        (readExact len).run { s with reads := front ++ back } =
          .error (error "Connection closed") t) ∧
      ∀ what rest, back = .failed what :: rest → ∃ t,
        (readExact len).run { s with reads := front ++ back } = .error (.thrown what) t) := by
  have hdst : (List.replicate len (0 : UInt8)).length = len := List.length_replicate
  obtain ⟨henough, hshort⟩ := readRounds_any_schedule hdst flowing back
  rw [readExact_eq_readRounds hdst]
  refine ⟨fun hle => ?_, fun hlt => ⟨fun rest hback => ?_, fun what rest hback => ?_⟩⟩
  · obtain ⟨left, hrounds, hleft⟩ := henough hle
    refine ⟨left, ?_, hleft⟩
    rw [hrounds]
    rfl
  · exact afterReads_error _ ((hshort hlt).1 rest hback)
  · exact afterReads_error _ ((hshort hlt).2 what rest hback)

theorem writeExact_any_schedule (s : Socket) (src : Bytes) {front : List WriteResult}
    (lossless : Lossless front) (back : List WriteResult) :
    (src.length ≤ capacity front ∨ back = [] → ∃ left,
      (writeExact src).run { s with writes := front ++ back } =
          .ok () { s with writes := left ++ back, written := s.written ++ src } ∧
        Lossless left) ∧
    (capacity front < src.length →
      (∀ rest, back = .accepted 0 :: rest →
        (writeExact src).run { s with writes := front ++ back } =
          .error (error "Write returned zero")
            { s with writes := rest, written := s.written ++ src.take (capacity front) }) ∧
      ∀ what rest, back = .failed what :: rest →
        (writeExact src).run { s with writes := front ++ back } = .error (.thrown what)
          { s with writes := rest, written := s.written ++ src.take (capacity front) }) := by
  obtain ⟨henough, hshort⟩ := writeRounds_any_schedule src lossless back
  rw [writeExact_eq_writeRounds]
  refine ⟨fun hle => ?_, fun hlt => ⟨fun rest hback => ?_, fun what rest hback => ?_⟩⟩
  · obtain ⟨left, hrounds, hleft⟩ := henough hle
    refine ⟨left, ?_, hleft⟩
    rw [hrounds]
    rfl
  · rw [(hshort hlt).1 rest hback]
    rfl
  · rw [(hshort hlt).2 what rest hback]
    rfl

end SshClient.Socket
