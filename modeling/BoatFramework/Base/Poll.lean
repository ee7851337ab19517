/-
A loop that asks again while the answers say to wait.  Where waiting leaves the
state alone, a run is decided by the first answer that says something else, or
by the end of the budget.
-/
import Mathlib.Data.List.Basic

namespace Poll

variable {ε σ α β : Type}

/-- Take the answers in turn, at most `polls` of them from number `poll` on;
a step says what to do with an answer and with the rest of the loop. -/
def run (step : EStateM ε σ β → α → EStateM ε σ β) (expired : EStateM ε σ β)
    (answers : Nat → α) : Nat → Nat → EStateM ε σ β
  | 0, _ => expired
  | polls + 1, poll =>
      step (run step expired answers polls (poll + 1)) (answers poll)

/-- The number of the first answer that does not say to wait. -/
def firstEnd (waits : α → Bool) (answers : Nat → α) (polls poll : Nat) :
    Option Nat :=
  (List.range' poll polls).find? fun n => !waits (answers n)

section Ends

variable {waits : α → Bool} {answers : Nat → α} {polls poll n : Nat}

theorem firstEnd_eq_some :
    firstEnd waits answers polls poll = some n ↔
      (poll ≤ n ∧ n < poll + polls) ∧ waits (answers n) = false ∧
        ∀ m, poll ≤ m → m < n → waits (answers m) = true := by
  rw [firstEnd, List.find?_range'_eq_some, List.mem_range'_1]
  simp only [Bool.not_eq_true', Bool.not_eq_false']
  exact and_left_comm

theorem firstEnd_of_wait (hwait : waits (answers poll) = true) :
    firstEnd waits answers (polls + 1) poll =
      firstEnd waits answers polls (poll + 1) := by
  rw [firstEnd, List.range'_succ, List.find?_cons_of_neg (by simp [hwait])]
  rfl

theorem firstEnd_of_end (hend : waits (answers poll) = false) :
    firstEnd waits answers (polls + 1) poll = some poll := by
  rw [firstEnd, List.range'_succ, List.find?_cons_of_pos (by simp [hend])]

end Ends

section Run

variable {step : EStateM ε σ β → α → EStateM ε σ β} {expired : EStateM ε σ β}
  {judge : α → EStateM ε σ β} {waits : α → Bool} {answers : Nat → α}

/-- The first answer that does not say to wait decides the run; by induction on
the budget. -/
theorem run_eq
    (hwait : ∀ again answer, waits answer = true → step again answer = again)
    (hend : ∀ again answer, waits answer = false →
      step again answer = judge answer) (polls poll : Nat) :
    run step expired answers polls poll =
      (firstEnd waits answers polls poll).elim expired
        fun n => judge (answers n) := by
  induction polls generalizing poll with
  | zero => rfl
  | succ polls ih =>
      rw [run]
      cases hanswer : waits (answers poll) with
      | true => rw [hwait _ _ hanswer, ih, firstEnd_of_wait hanswer]
      | false => rw [hend _ _ hanswer, firstEnd_of_end hanswer, Option.elim]

/-- A run that neither succeeds at its end nor fails in between: it succeeds
when the first answer that does not say to wait is judged well. -/
theorem run_eq_ok {polls : Nat} {s s' : σ} {b : β}
    (hwait : ∀ again answer, waits answer = true → step again answer = again)
    (hend : ∀ again answer, waits answer = false →
      step again answer = judge answer)
    (hexpired : ∀ b s', expired s ≠ .ok b s') :
    run step expired answers polls 0 s = .ok b s' ↔
      ∃ n < polls, (∀ m < n, waits (answers m) = true) ∧
        waits (answers n) = false ∧ judge (answers n) s = .ok b s' := by
  rw [run_eq hwait hend]
  constructor
  · intro hrun
    cases hfirst : firstEnd waits answers polls 0 with
    | none =>
        rw [hfirst] at hrun
        exact absurd hrun (hexpired b s')
    | some n =>
        rw [hfirst] at hrun
        obtain ⟨⟨_, hlt⟩, hn, hbefore⟩ := firstEnd_eq_some.mp hfirst
        exact ⟨n, by omega, fun m hm => hbefore m (Nat.zero_le m) hm, hn, hrun⟩
  · rintro ⟨n, hlt, hbefore, hn, hrun⟩
    have hfirst : firstEnd waits answers polls 0 = some n :=
      firstEnd_eq_some.mpr
        ⟨⟨Nat.zero_le n, by omega⟩, hn, fun m _ hm => hbefore m hm⟩
    rw [hfirst]
    exact hrun

end Run

end Poll
