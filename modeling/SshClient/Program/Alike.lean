import SshClient.Client.Composition

/-!
# Worlds that differ in their wires

The client sees of a wire only the transport, and otherwise what the calls on the wire
return. A relation between wires that no call notices is therefore a relation between
worlds that no program of calls notices.
-/

namespace SshClient.Program

open Control Client Transport

variable {crypto : Crypto} {rights : Rights} {S : Wire → Wire → Prop} {α : Type}

/-- The same world, on a related wire. -/
def Alike (S : Wire → Wire → Prop) (w w' : World) : Prop :=
  ∃ wire, w' = { w with wire := wire } ∧ S w.wire wire

/-- No call on the wire tells related wires apart. -/
structure Unnoticed (crypto : Crypto) (rights : Rights) (S : Wire → Wire → Prop) : Prop where
  transport : ∀ {w w'}, S w w' → w'.transport = w.transport
  stream : ∀ {w w'}, S w w' → Socket.stream w'.sock.reads = Socket.stream w.sock.reads
  calls : ∀ α x, WireCall crypto rights α x → Simulates S x x

theorem simulates_onWire {x y : Exec Wire α} (h : Simulates S x y) :
    Simulates (Alike S) (onWire x) (onWire y) := by
  refine .focus h ?_ ?_
  · rintro w _ ⟨wire, rfl, related⟩
    exact related
  · rintro w _ u v ⟨wire, rfl, -⟩ related
    exact ⟨v, rfl, related⟩

/-- A program on a part of the world beside the wire. -/
theorem simulates_beside {σ : Type} {get : World → σ} {put : World → σ → World} (x : Exec σ α)
    (hget : ∀ w wire, get { w with wire := wire } = get w)
    (hput : ∀ w wire s, put { w with wire := wire } s = { put w s with wire := wire })
    (hwire : ∀ w s, (put w s).wire = w.wire) :
    Simulates (Alike S) (focus get put x) (focus get put x) := by
  refine .focus (.of_eq x) ?_ ?_
  · rintro w _ ⟨wire, rfl, -⟩
    exact (hget w wire).symm
  · rintro w _ s _ ⟨wire, rfl, related⟩ rfl
    refine ⟨wire, hput w wire s, ?_⟩
    rw [hwire]
    exact related

theorem simulates_onConsole (x : Exec Console α) :
    Simulates (Alike S) (onConsole x) (onConsole x) :=
  simulates_beside x (fun _ _ => rfl) (fun _ _ _ => rfl) (fun _ _ => rfl)

theorem simulates_poll (keyboardEvents : Bool) :
    Simulates (Alike S) (poll keyboardEvents) (poll keyboardEvents) := by
  refine .bind_get ?_
  rintro w _ ⟨wire, rfl, related⟩
  dsimp only
  cases w.polls with
  | nil => exact .throw _
  | cons result rest =>
      refine .bind (.set ⟨wire, rfl, related⟩) fun _ => ?_
      cases result <;> exact .pure _

theorem simulates_readKeyboard (maxRead : Nat) :
    Simulates (Alike S) (readKeyboard maxRead) (readKeyboard maxRead) := by
  refine .bind_get ?_
  rintro w _ ⟨wire, rfl, related⟩
  dsimp only
  split
  · exact .throw _
  · exact .bind (.set ⟨wire, rfl, related⟩) fun _ => .throw _
  · refine .ite ?_ ?_
    · exact .bind (.set ⟨wire, rfl, related⟩) fun _ => .pure _
    · exact .bind (.set ⟨wire, rfl, related⟩) fun _ => .pure _

theorem simulates_call (unnoticed : Unnoticed crypto rights S) {x : Exec World α}
    (h : Call crypto rights α x) : Simulates (Alike S) x x := by
  cases h with
  | wire h => exact simulates_onWire (h.simulates unnoticed.calls fun _ _ _ => rfl)
  | channel h => exact simulates_beside _ (fun _ _ => rfl) (fun _ _ _ => rfl) (fun _ _ => rfl)
  | console h => exact simulates_onConsole _
  | hosts hostname algorithm hostKey =>
      exact simulates_beside _ (fun _ _ => rfl) (fun _ _ _ => rfl) (fun _ _ => rfl)
  | poll keyboardEvents => exact simulates_poll keyboardEvents
  | readKeyboard _ maxRead => exact simulates_readKeyboard maxRead
  | rounds =>
      refine .bind_get ?_
      rintro w _ ⟨wire, rfl, related⟩
      dsimp only
      rw [unnoticed.stream related]
      exact .pure _

/-- A program of calls does the same on both worlds. -/
theorem simulates_onWorld (unnoticed : Unnoticed crypto rights S) {allowed : Stop → Prop}
    {x : Exec World α} (h : OnWorld crypto allowed rights x) : Simulates (Alike S) x x := by
  refine h.simulates (fun _ _ => simulates_call unnoticed) ?_
  rintro w _ ⟨wire, rfl, related⟩
  unfold World.visible
  rw [unnoticed.transport related]

/-- The destructor of the terminal runs in both worlds or in neither. -/
theorem simulates_withTerminal {x y : Exec World Unit} (h : Simulates (Alike S) x y) :
    Simulates (Alike S) (withTerminal x) (withTerminal y) := by
  rintro w _ ⟨wire, rfl, related⟩
  have hsame := h { w with console := { w.console with terminal := {} } }
    { w with wire := wire, console := { w.console with terminal := {} } } ⟨wire, rfl, related⟩
  have hdestroy : Simulates (Alike S) (onConsole Terminal.destroy) (onConsole Terminal.destroy) :=
    simulates_onConsole _
  simp only [withTerminal, EStateM.run] at hsame ⊢
  cases hx : x { w with console := { w.console with terminal := {} } } <;>
    cases hy : y { w with wire := wire, console := { w.console with terminal := {} } } <;>
    rw [hx, hy] at hsame
  case ok.ok => exact hdestroy _ _ hsame.2
  case ok.error => exact hsame.elim
  case error.ok => exact hsame.elim
  case error.error e t e' t' =>
      obtain ⟨rfl, hrelated⟩ := hsame
      cases e with
      | thrown what => exact hdestroy.bind (fun _ => .throw _) _ _ hrelated
      | blocked => exact ⟨rfl, hrelated⟩
      | fault => exact ⟨rfl, hrelated⟩

end SshClient.Program
