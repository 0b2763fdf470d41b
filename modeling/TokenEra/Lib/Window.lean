import Mathlib.Tactic

/-!
# At most so many in any window

A limiter admits at most `n` events in any `d` units of time and remembers the last few of those
that it has admitted, in a queue. What it needs to know is that the others are too old to count with
the next one (`Window`): then a place in the queue is a place in every window.
-/

namespace TokenEra.Lib

/-- How many of the times are in the window of length `d` that begins at `w`. -/
def inWindow (d w : Int) (times : List Int) : Nat := times.countP fun t => w ≤ t ∧ t < w + d

/-- `history` is what was admitted until `now`, `queue` is what is remembered of it. -/
structure Window (n : Nat) (d now : Int) (history queue : List Int) : Prop where
  bounded : ∀ w, inWindow d w history ≤ n
  sorted : history.Pairwise (· ≤ ·)
  past : ∀ t ∈ history, t ≤ now
  queue_le : queue.length ≤ n
  forgotten : ∃ old, history = old ++ queue ∧ (queue.length < n → ∀ t ∈ old, t + d ≤ now)

variable {n : Nat} {d now : Int} {history queue : List Int}

theorem window_nil (n : Nat) (d now : Int) : Window n d now [] [] where
  bounded _ := Nat.zero_le n
  sorted := List.Pairwise.nil
  past := nofun
  queue_le := Nat.zero_le n
  forgotten := ⟨[], rfl, fun _ => nofun⟩

namespace Window

theorem later (h : Window n d now history queue) {now' : Int} (hnow : now ≤ now') : Window n d now' history queue := by
  obtain ⟨old, hold, hexpired⟩ := h.forgotten
  refine ⟨h.bounded, h.sorted, fun t ht => (h.past t ht).trans hnow, h.queue_le, old, hold, fun hlen t ht => ?_⟩
  exact (hexpired hlen t ht).trans hnow

theorem le_last {init : List Int} {last : Int} (h : Window n d now history (init ++ [last])) :
    ∀ t ∈ init ++ [last], t ≤ last := by
  obtain ⟨old, rfl, -⟩ := h.forgotten
  have hqueue := (List.pairwise_append.1 h.sorted).2.1
  intro t ht
  rcases List.mem_append.1 ht with ht | ht
  · exact (List.pairwise_append.1 hqueue).2.2 t ht last (List.mem_singleton_self last)
  · exact (List.mem_singleton.1 ht).le

theorem cut {first : List Int} (h : Window n d now history (first ++ queue)) (hfirst : ∀ t ∈ first, t + d ≤ now) :
    Window n d now history queue := by
  obtain ⟨old, rfl, hexpired⟩ := h.forgotten
  have hlen := h.queue_le
  rw [List.length_append] at hlen
  refine ⟨h.bounded, h.sorted, h.past, by omega, old ++ first, (List.append_assoc _ _ _).symm, fun hroom t ht => ?_⟩
  rcases List.mem_append.1 ht with hmem | hmem
  · cases first with
    | nil => exact hexpired hroom t hmem
    | cons x first =>
      -- what was forgotten before is older still
      have hle : t ≤ x := (List.pairwise_append.1 h.sorted).2.2 t hmem x (by simp)
      have := hfirst x List.mem_cons_self
      omega
  · exact hfirst t hmem

theorem push (h : Window n d now history queue) (hroom : queue.length < n) :
    Window n d now (history ++ [now]) (queue ++ [now]) := by
  obtain ⟨old, rfl, hexpired⟩ := h.forgotten
  have hlen : (queue ++ [now]).length ≤ n := by simpa using hroom
  refine ⟨fun w => ?_, ?_, ?_, hlen, old, List.append_assoc _ _ _, fun _ => hexpired hroom⟩
  · by_cases hw : w ≤ now ∧ now < w + d
    · have hnone : inWindow d w old = 0 := by
        refine List.countP_eq_zero.2 fun t ht => ?_
        have := hexpired hroom t ht
        simp only [decide_eq_true_eq]
        omega
      calc inWindow d w (old ++ queue ++ [now])
          = inWindow d w old + inWindow d w (queue ++ [now]) := by
            rw [List.append_assoc, inWindow, List.countP_append]
            rfl
        _ ≤ n := by
          rw [hnone, Nat.zero_add]
          exact List.countP_le_length.trans hlen
    · rw [inWindow, List.countP_append, List.countP_cons_of_neg (by simpa using hw), List.countP_nil]
      exact h.bounded w
  · exact List.pairwise_append.2 ⟨h.sorted, List.pairwise_singleton _ _, fun t ht x hx => by
      rw [List.mem_singleton.1 hx]
      exact h.past t ht⟩
  · intro t ht
    rcases List.mem_append.1 ht with ht | ht
    · exact h.past t ht
    · rw [List.mem_singleton.1 ht]

end Window

end TokenEra.Lib
