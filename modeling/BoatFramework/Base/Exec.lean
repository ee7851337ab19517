/-
Programs that change a state and may fail, as `EStateM`, and how a run that
succeeds splits at a bind: every step of it succeeded on the state before.
-/
import Mathlib.Logic.Basic

namespace Exec

variable {ε σ α β : Type}

theorem bind_eq_ok {first : EStateM ε σ α} {next : α → EStateM ε σ β}
    {s s' : σ} {b : β} :
    (first >>= next) s = .ok b s' ↔
      ∃ a mid, first s = .ok a mid ∧ next a mid = .ok b s' := by
  change EStateM.bind first next s = _ ↔ _
  unfold EStateM.bind
  constructor
  · intro hrun
    split at hrun
    next a mid hfirst => exact ⟨a, mid, hfirst, hrun⟩
    next => cases hrun
  · rintro ⟨a, mid, hfirst, hnext⟩
    rw [hfirst]
    exact hnext

/-- A run of two programs goes on behind a first that succeeds. -/
theorem bind_ok {first : EStateM ε σ α} {next : α → EStateM ε σ β}
    {s mid : σ} {a : α} (hfirst : first s = .ok a mid) :
    (first >>= next) s = next a mid := by
  change EStateM.bind first next s = _
  rw [EStateM.bind, hfirst]

/-- It ends with a first that fails. -/
theorem bind_error {first : EStateM ε σ α} {next : α → EStateM ε σ β}
    {s mid : σ} {e : ε} (hfirst : first s = .error e mid) :
    (first >>= next) s = .error e mid := by
  change EStateM.bind first next s = _
  rw [EStateM.bind, hfirst]

/-- A run of two programs fails in the first or in the second. -/
theorem bind_eq_error {first : EStateM ε σ α} {next : α → EStateM ε σ β}
    {s s' : σ} {e : ε} :
    (first >>= next) s = .error e s' ↔
      first s = .error e s' ∨
        ∃ a mid, first s = .ok a mid ∧ next a mid = .error e s' := by
  cases hfirst : first s with
  | ok a mid =>
      rw [bind_ok hfirst]
      constructor
      · intro hnext
        exact .inr ⟨a, mid, rfl, hnext⟩
      · rintro (herror | ⟨_, _, hok, hnext⟩)
        · cases herror
        · cases hok
          exact hnext
  | error failure mid =>
      rw [bind_error hfirst]
      constructor
      · intro herror
        cases herror
        exact .inl rfl
      · rintro (herror | ⟨_, _, hok, _⟩)
        · cases herror
          rfl
        · cases hok

theorem pure_eq_ok {a b : α} {s s' : σ} :
    (pure a : EStateM ε σ α) s = .ok b s' ↔ a = b ∧ s = s' := by
  change EStateM.Result.ok a s = .ok b s' ↔ _
  simp

/-- A step run over a list succeeds when each of its runs does. -/
theorem forM_cons_eq_ok {step : α → EStateM ε σ Unit} {head : α}
    {tail : List α} {s s' : σ}
    (hrun : (head :: tail).forM step s = .ok () s') :
    ∃ mid, step head s = .ok () mid ∧ tail.forM step mid = .ok () s' := by
  obtain ⟨_, mid, hhead, htail⟩ := bind_eq_ok.mp hrun
  exact ⟨mid, hhead, htail⟩

theorem forM_append_eq_ok {step : α → EStateM ε σ Unit} {front back : List α}
    {s s' : σ} (hrun : (front ++ back).forM step s = .ok () s') :
    ∃ mid, front.forM step s = .ok () mid ∧ back.forM step mid = .ok () s' := by
  induction front generalizing s with
  | nil => exact ⟨s, rfl, hrun⟩
  | cons head front ih =>
      obtain ⟨next, hhead, htail⟩ := forM_cons_eq_ok hrun
      obtain ⟨mid, hfront, hback⟩ := ih htail
      exact ⟨mid, bind_eq_ok.mpr ⟨(), next, hhead, hfront⟩, hback⟩

/-- A computation without a state splits in the same way. -/
theorem except_bind_eq_ok {first : Except ε α} {next : α → Except ε β} {b : β} :
    first >>= next = .ok b ↔ ∃ a, first = .ok a ∧ next a = .ok b := by
  constructor
  · intro hrun
    cases first with
    | error e => cases hrun
    | ok a => exact ⟨a, rfl, hrun⟩
  · rintro ⟨a, rfl, hnext⟩
    exact hnext

theorem except_ok_bind (a : α) (next : α → Except ε β) :
    (Except.ok a >>= next) = next a :=
  rfl

theorem except_map_eq_ok {first : Except ε α} {value : α → β} {b : β} :
    first.map value = .ok b ↔ ∃ a, first = .ok a ∧ value a = b := by
  cases first with
  | error e => simp [Except.map]
  | ok a => simp [Except.map]

theorem except_mapM_ok {step : α → Except ε β} {value : α → β} {list : List α}
    (hstep : ∀ a ∈ list, step a = .ok (value a)) :
    list.mapM step = .ok (list.map value) := by
  induction list with
  | nil => rfl
  | cons head tail ih =>
      have hrest := ih fun a hmem => hstep a (List.mem_cons_of_mem _ hmem)
      rw [List.mapM_cons, hstep head List.mem_cons_self, except_ok_bind, hrest]
      rfl

theorem except_mapM_eq_ok {step : α → Except ε β} {list : List α}
    {values : List β} (hrun : list.mapM step = .ok values) :
    values.length = list.length ∧ ∀ a ∈ list, ∃ value, step a = .ok value := by
  induction list generalizing values with
  | nil =>
      obtain rfl := Except.ok.inj hrun
      simp
  | cons head tail ih =>
      rw [List.mapM_cons] at hrun
      obtain ⟨value, hhead, hrun⟩ := except_bind_eq_ok.mp hrun
      obtain ⟨rest, htail, hrun⟩ := except_bind_eq_ok.mp hrun
      obtain rfl := Except.ok.inj hrun
      obtain ⟨hlength, hvalues⟩ := ih htail
      constructor
      · rw [List.length_cons, List.length_cons, hlength]
      · intro a hmem
        rcases List.mem_cons.mp hmem with rfl | hmem
        · exact ⟨value, hhead⟩
        · exact hvalues a hmem

/-- The one error of a step is the one error of its runs over a list. -/
theorem except_mapM_error {step : α → Except ε β} {list : List α} {only e : ε}
    (hstep : ∀ a ∈ list, ∀ e, step a = .error e → e = only)
    (hrun : list.mapM step = .error e) : e = only := by
  induction list with
  | nil => cases hrun
  | cons head tail ih =>
      have htail := ih fun a hmem => hstep a (List.mem_cons_of_mem _ hmem)
      rw [List.mapM_cons] at hrun
      cases hhead : step head with
      | error found =>
          rw [hhead] at hrun
          obtain rfl := Except.error.inj hrun
          exact hstep head List.mem_cons_self _ hhead
      | ok value =>
          rw [hhead, except_ok_bind] at hrun
          cases hrest : tail.mapM step with
          | error found =>
              rw [hrest] at hrun
              obtain rfl := Except.error.inj hrun
              exact htail hrest
          | ok values =>
              rw [hrest, except_ok_bind] at hrun
              cases hrun

/-- A value behind a check that was passed. -/
theorem except_guard_eq_ok {p : Prop} [Decidable p] {e : ε} {a b : α}
    (hguard : (if p then .error e else .ok a) = Except.ok b) : ¬p ∧ a = b := by
  by_cases hp : p
  · rw [if_pos hp] at hguard
    cases hguard
  · rw [if_neg hp] at hguard
    exact ⟨hp, Except.ok.inj hguard⟩

section Keeps

variable {τ : Type} {view : σ → τ}

/-- The state a run leaves, however it ends. -/
def final : EStateM.Result ε σ α → σ
  | .ok _ s => s
  | .error _ s => s

def succeeds : EStateM.Result ε σ α → Bool
  | .ok _ _ => true
  | .error _ _ => false

theorem eq_ok_of_succeeds {r : EStateM.Result ε σ α}
    (hsucceeds : succeeds r = true) : ∃ a, r = .ok a (final r) := by
  cases r with
  | ok a s => exact ⟨a, rfl⟩
  | error e s => cases hsucceeds

/-- No run of the program changes the view. -/
def Keeps (view : σ → τ) (program : EStateM ε σ α) : Prop :=
  ∀ s, view (final (program s)) = view s

theorem Keeps.pure (a : α) : Keeps view (pure a : EStateM ε σ α) :=
  fun _ => rfl

/-- What a program that keeps the view does last is not seen in it. -/
theorem view_bind {first : EStateM ε σ α} {next : α → EStateM ε σ β}
    (hnext : ∀ a, Keeps view (next a)) (s : σ) :
    view (final ((first >>= next) s)) = view (final (first s)) := by
  change view (final (EStateM.bind first next s)) = _
  unfold EStateM.bind
  split
  next a mid hrun =>
    rw [hrun]
    exact hnext a mid
  next e mid hrun =>
    rw [hrun]
    rfl

theorem Keeps.bind {first : EStateM ε σ α} {next : α → EStateM ε σ β}
    (hfirst : Keeps view first) (hnext : ∀ a, Keeps view (next a)) :
    Keeps view (first >>= next) :=
  fun s => (view_bind hnext s).trans (hfirst s)

/-- A run of two programs ends in the first, or goes on from where it ended. -/
theorem final_bind (first : EStateM ε σ α) (next : α → EStateM ε σ β) (s : σ) :
    (∃ a mid, first s = .ok a mid ∧
        final ((first >>= next) s) = final (next a mid)) ∨
      final ((first >>= next) s) = final (first s) := by
  change (∃ a mid, _ ∧ final (EStateM.bind first next s) = _) ∨
    final (EStateM.bind first next s) = _
  unfold EStateM.bind
  split
  next a mid hrun => exact .inl ⟨a, mid, hrun, rfl⟩
  next e mid hrun =>
    rw [hrun]
    exact .inr rfl

/-- Behind a program that keeps the view, the run ends with the view kept or
goes on. -/
theorem Keeps.view_bind {first : EStateM ε σ α} {next : α → EStateM ε σ β}
    (hfirst : Keeps view first) (s : σ) :
    view (final ((first >>= next) s)) = view s ∨
      ∃ a mid, first s = .ok a mid ∧ view mid = view s ∧
        final ((first >>= next) s) = final (next a mid) := by
  have hkept := hfirst s
  rcases final_bind first next s with ⟨a, mid, hrun, hfinal⟩ | hfinal
  · rw [hrun] at hkept
    exact .inr ⟨a, mid, hrun, hkept, hfinal⟩
  · rw [hfinal]
    exact .inl hkept

theorem Keeps.ite {p : Prop} [Decidable p] {left right : EStateM ε σ α}
    (hleft : Keeps view left) (hright : Keeps view right) :
    Keeps view (if p then left else right) := by
  split
  · exact hleft
  · exact hright

theorem Keeps.forM {step : α → EStateM ε σ Unit}
    (hstep : ∀ a, Keeps view (step a)) (list : List α) :
    Keeps view (list.forM step) := by
  induction list with
  | nil => exact Keeps.pure ()
  | cons head tail ih => exact Keeps.bind (hstep head) fun _ => ih

end Keeps

end Exec
