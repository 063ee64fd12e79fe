import Mathlib.Data.List.Basic

/-!
# Lines and words

The two ways in which a stream cuts text. `lines d` is a loop of `getline` with the
delimiter `d`: a last line needs no delimiter, and nothing stands behind a last
delimiter. `words isSpace` is a loop of `>>`: maximal runs without space.

Text that ends with a delimiter is cut independently of what follows it. Text that
does not is continued by it, and so is its last word.
-/

namespace Text

variable {α : Type} [DecidableEq α]

/-- The lines of a text. -/
def lines (d : α) : List α → List (List α)
  | [] => []
  | c :: rest =>
      if c = d then [] :: lines d rest
      else match lines d rest with
        | [] => [[c]]
        | line :: later => (c :: line) :: later

/-- Nothing would be joined to the last line. -/
def Terminated (d : α) (text : List α) : Prop := ∀ c, text.getLast? = some c → c = d

instance (d : α) (text : List α) : Decidable (Terminated d text) :=
  match h : text.getLast? with
  | none => isTrue fun c hc => by rw [h] at hc; cases hc
  | some c =>
      if hd : c = d then isTrue fun e he => by rw [h] at he; cases he; exact hd
      else isFalse fun ht => hd (ht c h)

omit [DecidableEq α] in
theorem terminated_append_singleton (d : α) (text : List α) : Terminated d (text ++ [d]) := by
  intro c h
  simpa using h.symm

omit [DecidableEq α] in
theorem Terminated.tail {d c : α} {rest : List α} (h : Terminated d (c :: rest)) :
    Terminated d rest := by
  intro e he
  apply h e
  cases rest with
  | nil => simp at he
  | cons x xs => rw [List.getLast?_cons_cons, he]

theorem lines_ne_nil {d : α} {text : List α} (h : text ≠ []) : lines d text ≠ [] := by
  cases text with
  | nil => exact absurd rfl h
  | cons c rest =>
      rw [lines]
      split
      · simp
      · split <;> simp

/-- The first line of a text that begins with a whole line. -/
theorem lines_append_delimiter {d : α} {line : List α} (h : d ∉ line) (rest : List α) :
    lines d (line ++ d :: rest) = line :: lines d rest := by
  induction line with
  | nil => simp [lines]
  | cons c line ih =>
      have hc : c ≠ d := fun heq => h (by simp [heq])
      rw [List.cons_append, lines, if_neg hc, ih fun hm => h (List.mem_cons_of_mem _ hm)]

/-- What a loop of `getline` cuts a text into: lines without the delimiter, each ended by
one, and behind the last delimiter one more line if anything is left. -/
inductive Splits (d : α) : List α → List (List α) → Prop where
  | nil : Splits d [] []
  | last {line : List α} : d ∉ line → line ≠ [] → Splits d line [line]
  | cons {line rest : List α} {later : List (List α)} :
      d ∉ line → Splits d rest later → Splits d (line ++ d :: rest) (line :: later)

theorem splits_lines (d : α) (text : List α) : Splits d text (lines d text) := by
  induction text with
  | nil => exact .nil
  | cons c rest ih =>
      rw [lines]
      by_cases hc : c = d
      · rw [if_pos hc, hc]
        exact show Splits d ([] ++ d :: rest) ([] :: lines d rest) from .cons (by simp) ih
      · rw [if_neg hc]
        generalize lines d rest = cut at ih
        cases ih with
        | nil => exact .last (by simpa using Ne.symm hc) (by simp)
        | last hline _ => exact .last (by simpa [Ne.symm hc] using hline) (by simp)
        | @cons line rest later hline hrest =>
            exact show Splits d ((c :: line) ++ d :: rest) ((c :: line) :: later) from
              .cons (by simpa [Ne.symm hc] using hline) hrest

theorem lines_of_not_mem {d : α} {line : List α} (h : d ∉ line) (hne : line ≠ []) :
    lines d line = [line] := by
  induction line with
  | nil => exact absurd rfl hne
  | cons c line ih =>
      have hc : c ≠ d := fun heq => h (by simp [heq])
      rw [lines, if_neg hc]
      cases line with
      | nil => rfl
      | cons c' line => rw [ih (fun hm => h (List.mem_cons_of_mem _ hm)) (by simp)]

/-- A text is cut in one way only. -/
theorem splits_iff {d : α} {text : List α} {cut : List (List α)} :
    Splits d text cut ↔ cut = lines d text := by
  constructor
  · intro h
    induction h with
    | nil => rfl
    | last hline hne => rw [lines_of_not_mem hline hne]
    | cons hline _ ih => rw [lines_append_delimiter hline, ih]
  · rintro rfl
    exact splits_lines d text

theorem lines_append {d : α} {text : List α} (h : Terminated d text) (rest : List α) :
    lines d (text ++ rest) = lines d text ++ lines d rest := by
  induction text with
  | nil => rfl
  | cons c text ih =>
      rw [List.cons_append, lines, lines]
      by_cases hc : c = d
      · rw [if_pos hc, if_pos hc, ih h.tail, List.cons_append]
      · rw [if_neg hc, if_neg hc, ih h.tail]
        -- An unterminated character has a later one, so its line is not the last.
        have hne : text ≠ [] := by
          rintro rfl
          exact hc (h c rfl)
        cases hl : lines d text with
        | nil => exact absurd hl (lines_ne_nil hne)
        | cons line later => rfl

/-- A text that is not terminated has a last line, which what follows continues. -/
theorem lines_append_of_not_terminated {d : α} {text : List α} (h : ¬ Terminated d text) :
    ∃ before line, line ≠ [] ∧ lines d text = before ++ [line] ∧
      ∀ more rest, d ∉ more →
        lines d (text ++ (more ++ d :: rest)) = before ++ (line ++ more) :: lines d rest := by
  induction text with
  | nil => exact absurd (fun c hc => by simp at hc) h
  | cons c text ih =>
      by_cases ht : Terminated d text
      · -- The whole text is one unterminated character.
        have hnil : text = [] := by
          by_contra hne
          apply h
          intro e he
          apply ht e
          obtain ⟨x, xs, rfl⟩ := List.exists_cons_of_ne_nil hne
          rwa [List.getLast?_cons_cons] at he
        subst hnil
        have hc : c ≠ d := by
          rintro rfl
          exact h fun e he => by simpa using he.symm
        refine ⟨[], [c], by simp, by simp [lines, hc], ?_⟩
        intro more rest hmore
        rw [List.singleton_append, lines, if_neg hc, lines_append_delimiter hmore]
        rfl
      · obtain ⟨before, line, hne, hlines, happend⟩ := ih ht
        by_cases hc : c = d
        · refine ⟨[] :: before, line, hne, by simp [lines, hc, hlines], ?_⟩
          intro more rest hmore
          rw [List.cons_append, lines, if_pos hc, happend more rest hmore]
          rfl
        · cases before with
          | nil =>
              refine ⟨[], c :: line, by simp, by simp [lines, hc, hlines], ?_⟩
              intro more rest hmore
              rw [List.cons_append, lines, if_neg hc, happend more rest hmore]
              rfl
          | cons first before =>
              refine ⟨(c :: first) :: before, line, hne, by simp [lines, hc, hlines], ?_⟩
              intro more rest hmore
              rw [List.cons_append, lines, if_neg hc, happend more rest hmore]
              rfl

/-- The same for what follows without a delimiter, or with one at its end. -/
theorem lines_continued {d : α} {text : List α} (h : ¬ Terminated d text) :
    ∃ before line, line ≠ [] ∧ lines d text = before ++ [line] ∧ ∀ more, d ∉ more →
      lines d (text ++ more) = before ++ [line ++ more] ∧
        lines d (text ++ (more ++ [d])) = before ++ [line ++ more] := by
  obtain ⟨before, line, hne, hlines, happend⟩ := lines_append_of_not_terminated h
  refine ⟨before, line, hne, hlines, fun more hmore => ?_⟩
  have hend : lines d (text ++ (more ++ [d])) = before ++ [line ++ more] := happend more [] hmore
  refine ⟨?_, hend⟩
  -- A delimiter at the end of an unterminated text adds no line.
  have hopen : ¬ Terminated d (text ++ more) := by
    intro hclosed
    rcases List.eq_nil_or_concat more with rfl | ⟨init, c, rfl⟩
    · exact h (by simpa using hclosed)
    · have hc := hclosed c (by simp)
      exact hmore (by simp [hc])
  obtain ⟨before', line', -, hlines', happend'⟩ := lines_append_of_not_terminated hopen
  have hsame := happend' [] [] (by simp)
  rw [List.nil_append, List.append_assoc, hend, List.append_nil] at hsame
  rw [hlines', hsame]
  rfl

omit [DecidableEq α] in
/-- The last delimiter splits a text in one way only. -/
theorem append_cons_inj_last {d : α} {a b x y : List α} (hx : d ∉ x) (hy : d ∉ y)
    (h : a ++ d :: x = b ++ d :: y) : a = b ∧ x = y := by
  have hshift : ∀ {x y more : List α}, d ∉ x → d :: x = more ++ d :: y → more = [] ∧ x = y := by
    intro x y more hx h
    cases more with
    | nil => exact ⟨rfl, (List.cons.inj h).2⟩
    | cons c more => exact absurd (by rw [(List.cons.inj h).2]; simp) hx
  rcases List.append_eq_append_iff.mp h with ⟨more, hb, hmore⟩ | ⟨more, ha, hmore⟩
  · obtain ⟨rfl, rfl⟩ := hshift hx hmore
    exact ⟨by rw [hb, List.append_nil], rfl⟩
  · obtain ⟨rfl, rfl⟩ := hshift hy hmore
    exact ⟨by rw [ha, List.append_nil], rfl⟩

section Words

variable {α : Type} (isSpace : α → Bool)

/-- The words of a text. -/
def words : List α → List (List α)
  | [] => []
  | c :: rest =>
      if isSpace c then words rest
      else if rest.head?.all isSpace then [c] :: words rest
      else match words rest with
        | [] => [[c]]
        | word :: later => (c :: word) :: later

variable {isSpace}

/-- No character of the word is space. -/
def IsWord (isSpace : α → Bool) (word : List α) : Prop :=
  word ≠ [] ∧ ∀ c ∈ word, isSpace c = false

theorem words_space {c : α} (h : isSpace c = true) (rest : List α) :
    words isSpace (c :: rest) = words isSpace rest := by
  rw [words, if_pos h]

/-- A word is followed by space or by nothing. -/
theorem words_append {word : List α} (h : IsWord isSpace word) {rest : List α}
    (hrest : rest.head?.all isSpace = true) :
    words isSpace (word ++ rest) = word :: words isSpace rest := by
  obtain ⟨hne, hword⟩ := h
  induction word with
  | nil => exact absurd rfl hne
  | cons c word ih =>
      have hc : ¬ isSpace c = true := by simp [hword c List.mem_cons_self]
      rw [List.cons_append, words, if_neg hc]
      cases word with
      | nil => rw [List.nil_append, if_pos hrest]
      | cons x xs =>
          have hx : isSpace x = false := hword x (by simp)
          rw [if_neg (by simp [hx]), ih (by simp) fun y hy => hword y (List.mem_cons_of_mem _ hy)]

theorem words_ne_nil {c : α} (h : isSpace c = false) (rest : List α) :
    words isSpace (c :: rest) ≠ [] := by
  rw [words, if_neg (by simp [h])]
  split
  · simp
  · split <;> simp

/-- What is appended to a text can change only its last word and add words behind it. -/
theorem words_append_init {text last : List α} {init : List (List α)}
    (h : words isSpace text = init ++ [last]) (more : List α) :
    ∃ last' later, words isSpace (text ++ more) = init ++ last' :: later := by
  induction text generalizing init last with
  | nil => simp [words] at h
  | cons c text ih =>
      rw [List.cons_append]
      by_cases hc : isSpace c = true
      · rw [words_space hc] at h ⊢
        exact ih h
      · cases text with
        | nil =>
            have hinit : init = [] := by
              rw [words, if_neg hc] at h
              have hlen := congrArg List.length h
              simp [words] at hlen
              exact hlen
            subst hinit
            exact List.exists_cons_of_ne_nil (words_ne_nil (by simpa using hc) _)
        | cons next rest =>
            have hhead : (next :: rest ++ more).head? = (next :: rest).head? := rfl
            rw [words, if_neg hc] at h ⊢
            rw [hhead]
            by_cases hnext : (next :: rest).head?.all isSpace = true
            · rw [if_pos hnext] at h ⊢
              cases init with
              | nil => exact ⟨_, _, rfl⟩
              | cons first init =>
                  rw [List.cons_append, List.cons.injEq] at h
                  obtain ⟨last', later, hw⟩ := ih h.2
                  exact ⟨last', later, by rw [hw, ← h.1, List.cons_append]⟩
            · rw [if_neg hnext] at h ⊢
              have hne : words isSpace (next :: rest) ≠ [] :=
                words_ne_nil (by simpa using hnext) _
              obtain ⟨word, later, hw⟩ := List.exists_cons_of_ne_nil hne
              rw [hw] at h
              cases init with
              | nil =>
                  simp only [List.nil_append, List.cons.injEq] at h
                  obtain ⟨last', later', hw'⟩ := ih
                    (show words isSpace (next :: rest) = [] ++ [word] by rw [hw, h.2]; rfl)
                  exact ⟨c :: last', later', by rw [hw']; rfl⟩
              | cons first init =>
                  rw [List.cons_append, List.cons.injEq] at h
                  obtain ⟨last', later', hw'⟩ := ih
                    (show words isSpace (next :: rest) = (word :: init) ++ [last] by
                      rw [hw, h.2]; rfl)
                  exact ⟨last', later', by rw [hw', ← h.1]; rfl⟩

end Words

end Text
