import Mathlib.Data.List.Induction

/-!
# What a machine shows after each input

A deterministic machine takes inputs one after the other, and may fail at one. Two states
that no sequence of inputs tells apart are related by a bisimulation; such a relation is
checked on single inputs.
-/

namespace Coursework.Transition

/-- A machine: what an input does to a state unless it fails, and what a state shows. -/
structure Machine (σ κ ω : Type*) where
  step : σ → κ → Option σ
  observe : σ → ω

variable {σ κ ω : Type*} {m : Machine σ κ ω}

/-- The state after a sequence of inputs. -/
def Machine.run (m : Machine σ κ ω) : σ → List κ → Option σ
  | s, [] => some s
  | s, key :: rest => (m.step s key).bind fun s' => m.run s' rest

/-- What the machine shows after each input of a sequence. -/
def Machine.observations (m : Machine σ κ ω) : σ → List κ → Option (List ω)
  | _, [] => some []
  | s, key :: rest =>
    (m.step s key).bind fun s' => (m.observations s' rest).map (m.observe s' :: ·)

/-- A sequence of inputs continues the run of its beginning. -/
theorem Machine.run_append (m : Machine σ κ ω) (s : σ) (front back : List κ) :
    m.run s (front ++ back) = (m.run s front).bind fun s' => m.run s' back := by
  induction front generalizing s with
  | nil => rfl
  | cons key rest ih =>
    simp only [List.cons_append, Machine.run]
    cases m.step s key with
    | none => rfl
    | some s' => exact ih s'

/-- The last input is the last step. -/
theorem Machine.run_append_singleton (m : Machine σ κ ω) (s : σ) (front : List κ) (key : κ) :
    m.run s (front ++ [key]) = (m.run s front).bind fun s' => m.step s' key := by
  rw [Machine.run_append]
  congr 1
  funext s'
  simp only [Machine.run, Option.bind_fun_some]

/-- What holds at the start and is kept by every input holds after every run. -/
theorem Machine.run_invariant (m : Machine σ κ ω) (Inv : σ → Prop)
    (hstep : ∀ s key s', Inv s → m.step s key = some s' → Inv s') (s s' : σ) (keys : List κ)
    (hs : Inv s) (hrun : m.run s keys = some s') : Inv s' := by
  induction keys generalizing s with
  | nil =>
    obtain rfl := Option.some.inj hrun
    exact hs
  | cons key rest ih =>
    obtain ⟨next, hnext, hrest⟩ := Option.bind_eq_some_iff.mp hrun
    exact ih next (hstep s key next hs hnext) hrest

/-- If every input uses up some of a measure, runs are no longer than the measure. -/
theorem Machine.run_length_le (m : Machine σ κ ω) (Inv : σ → Prop) (measure : σ → ℕ)
    (hstep : ∀ s key s', Inv s → m.step s key = some s' → Inv s' ∧ measure s' < measure s)
    (s s' : σ) (keys : List κ) (hs : Inv s) (hrun : m.run s keys = some s') :
    keys.length ≤ measure s := by
  induction keys generalizing s with
  | nil => exact Nat.zero_le _
  | cons key rest ih =>
    obtain ⟨next, hnext, hrest⟩ := Option.bind_eq_some_iff.mp hrun
    obtain ⟨hinv, hlt⟩ := hstep s key next hs hnext
    exact Nat.le_trans (Nat.succ_le_succ (ih next hinv hrest)) hlt

/-- A property holds in every state of a run, as far as the run goes. -/
def Machine.Always (m : Machine σ κ ω) (P : σ → Prop) : σ → List κ → Prop
  | s, [] => P s
  | s, key :: rest => P s ∧ ∀ s', m.step s key = some s' → m.Always P s' rest

/-- A condition holds of every step of a run, as far as the run goes. -/
def Machine.EachStep (m : Machine σ κ ω) (C : σ → κ → Prop) : σ → List κ → Prop
  | _, [] => True
  | s, key :: rest => ∀ s', m.step s key = some s' → C s key ∧ m.EachStep C s' rest

/-- If the steps under an invariant lead from a state with a property to one with the property
exactly when a condition holds of them, the property holds throughout a run exactly when the
condition does. -/
theorem Machine.always_iff_eachStep (m : Machine σ κ ω) (Inv P : σ → Prop) (C : σ → κ → Prop)
    (allowed : κ → Prop)
    (hstep : ∀ s key s', Inv s → P s → allowed key → m.step s key = some s' →
      Inv s' ∧ (P s' ↔ C s key))
    (s : σ) (keys : List κ) (hallowed : ∀ key ∈ keys, allowed key) (hs : Inv s) (hP : P s) :
    m.Always P s keys ↔ m.EachStep C s keys := by
  induction keys generalizing s with
  | nil => exact iff_of_true hP trivial
  | cons key rest ih =>
    have hrest : ∀ key ∈ rest, allowed key := fun key hkey =>
      hallowed key (List.mem_cons_of_mem _ hkey)
    constructor
    · rintro ⟨-, halways⟩ s' hs'
      obtain ⟨hinv, hiff⟩ := hstep s key s' hs hP (hallowed key List.mem_cons_self) hs'
      have hnext := halways s' hs'
      have hP' : P s' := by
        cases rest with
        | nil => exact hnext
        | cons key' rest => exact hnext.1
      exact ⟨hiff.mp hP', (ih s' hrest hinv hP').mp hnext⟩
    · intro heach
      refine ⟨hP, ?_⟩
      intro s' hs'
      obtain ⟨hinv, hiff⟩ := hstep s key s' hs hP (hallowed key List.mem_cons_self) hs'
      obtain ⟨hC, hnext⟩ := heach s' hs'
      exact (ih s' hrest hinv (hiff.mpr hC)).mpr hnext

/-- If every step under a condition is one of a second machine between related states, so is every
run whose steps meet the condition. -/
theorem Machine.run_refines {τ ω' : Type*} (m : Machine σ κ ω) (n : Machine τ κ ω')
    (R : σ → τ → Prop) (C : σ → κ → Prop)
    (hstep : ∀ s t key s', R s t → C s key → m.step s key = some s' →
      ∃ t', n.step t key = some t' ∧ R s' t')
    (s s' : σ) (t : τ) (keys : List κ) (hrel : R s t) (hC : m.EachStep C s keys)
    (hrun : m.run s keys = some s') : ∃ t', n.run t keys = some t' ∧ R s' t' := by
  induction keys generalizing s t with
  | nil =>
    obtain rfl := Option.some.inj hrun
    exact ⟨t, rfl, hrel⟩
  | cons key rest ih =>
    obtain ⟨next, hnext, hrest⟩ := Option.bind_eq_some_iff.mp hrun
    obtain ⟨hkey, hlater⟩ := hC next hnext
    obtain ⟨t', ht', hrelated⟩ := hstep s t key next hrel hkey hnext
    obtain ⟨last, hlast, hfinal⟩ := ih next t' hrelated hlater hrest
    refine ⟨last, ?_, hfinal⟩
    rw [Machine.run, ht']
    exact hlast

/-- A machine that never fails. -/
structure TotalMachine (τ κ ω : Type*) where
  step : τ → κ → τ
  observe : τ → ω

variable {τ : Type*} {n : TotalMachine τ κ ω}

/-- The state after a sequence of inputs. -/
def TotalMachine.run (n : TotalMachine τ κ ω) (t : τ) (keys : List κ) : τ := keys.foldl n.step t

/-- What the machine shows after each input of a sequence. -/
def TotalMachine.observations (n : TotalMachine τ κ ω) : τ → List κ → List ω
  | _, [] => []
  | t, key :: rest => n.observe (n.step t key) :: n.observations (n.step t key) rest

/-- The first machine never fails from a related state, and it stays related and shows the same. -/
structure Simulation (m : Machine σ κ ω) (n : TotalMachine τ κ ω) (R : σ → τ → Prop) : Prop where
  observe : ∀ s t, R s t → m.observe s = n.observe t
  step : ∀ s t key, R s t → ∃ s', m.step s key = some s' ∧ R s' (n.step t key)

/-- A simulated machine runs through every sequence of inputs. -/
theorem Simulation.run {R : σ → τ → Prop} (h : Simulation m n R) (s : σ) (t : τ) (hrel : R s t)
    (keys : List κ) : ∃ s', m.run s keys = some s' ∧ R s' (n.run t keys) := by
  induction keys generalizing s t with
  | nil => exact ⟨s, rfl, hrel⟩
  | cons key rest ih =>
    obtain ⟨next, hnext, hrelated⟩ := h.step s t key hrel
    obtain ⟨s', hrun, hs'⟩ := ih next (n.step t key) hrelated
    refine ⟨s', ?_, hs'⟩
    rw [Machine.run, hnext]
    exact hrun

/-- A simulated machine shows what the other machine shows. -/
theorem Simulation.observations {R : σ → τ → Prop} (h : Simulation m n R) (s : σ) (t : τ)
    (hrel : R s t) (keys : List κ) : m.observations s keys = some (n.observations t keys) := by
  induction keys generalizing s t with
  | nil => rfl
  | cons key rest ih =>
    obtain ⟨next, hnext, hrelated⟩ := h.step s t key hrel
    rw [Machine.observations, hnext, Option.bind_some, ih next _ hrelated, Option.map_some,
      h.observe next _ hrelated]
    rfl

/-- What follows a sequence of inputs starts from the state after it. -/
theorem TotalMachine.run_append (n : TotalMachine τ κ ω) (t : τ) (front back : List κ) :
    n.run t (front ++ back) = n.run (n.run t front) back := List.foldl_append

/-- The last input is the last step. -/
theorem TotalMachine.run_append_singleton (n : TotalMachine τ κ ω) (t : τ) (front : List κ)
    (key : κ) : n.run t (front ++ [key]) = n.step (n.run t front) key := by
  rw [TotalMachine.run_append]
  rfl

/-- What every input keeps, every sequence of inputs keeps. -/
theorem TotalMachine.run_invariant (n : TotalMachine τ κ ω) (Inv : τ → Prop)
    (hstep : ∀ t key, Inv t → Inv (n.step t key)) (start : τ) (h : Inv start) (keys : List κ) :
    Inv (n.run start keys) := by
  induction keys generalizing start with
  | nil => exact h
  | cons key rest ih => exact ih _ (hstep start key h)

/-- If the steps under an invariant lead from a state with a property to one with the property
exactly when a condition holds of them, the property holds throughout a run exactly when the
condition does. -/
theorem TotalMachine.forall_prefix_iff (n : TotalMachine τ κ ω) (Inv P : τ → Prop)
    (C : τ → κ → Prop)
    (hstep : ∀ t key, Inv t → P t → Inv (n.step t key) ∧ (P (n.step t key) ↔ C t key))
    (start : τ) (hstart : Inv start) (h : P start) (keys : List κ) :
    (∀ front, front <+: keys → P (n.run start front)) ↔
      ∀ front key, front ++ [key] <+: keys → C (n.run start front) key := by
  have hInv : (∀ front, front <+: keys → P (n.run start front)) →
      ∀ front, front <+: keys → Inv (n.run start front) := by
    intro hP front
    induction front using List.reverseRecOn with
    | nil => exact fun _ => hstart
    | append_singleton earlier key ih =>
      intro hfront
      have hbefore : earlier <+: keys := (List.prefix_append earlier [key]).trans hfront
      rw [TotalMachine.run_append_singleton]
      exact (hstep _ key (ih hbefore) (hP earlier hbefore)).1
  constructor
  · intro hP front key hfront
    have hbefore : front <+: keys := (List.prefix_append front [key]).trans hfront
    have hafter := hP _ hfront
    rw [TotalMachine.run_append_singleton] at hafter
    exact (hstep _ key (hInv hP front hbefore) (hP front hbefore)).2.mp hafter
  · intro hC front hfront
    have hboth : ∀ front, front <+: keys →
        Inv (n.run start front) ∧ P (n.run start front) := by
      intro front
      induction front using List.reverseRecOn with
      | nil => exact fun _ => ⟨hstart, h⟩
      | append_singleton earlier key ih =>
        intro hfront
        obtain ⟨hinv, hP⟩ := ih ((List.prefix_append earlier [key]).trans hfront)
        have hnext := hstep _ key hinv hP
        rw [TotalMachine.run_append_singleton]
        exact ⟨hnext.1, hnext.2.mpr (hC earlier key hfront)⟩
    exact (hboth front hfront).2

/-- If a property of steps amounts to a condition under an invariant, which steps with the property
keep, the steps of a run all have the property exactly when they all meet the condition. -/
theorem TotalMachine.forall_step_iff (n : TotalMachine τ κ ω) (Inv : τ → Prop) (Q C : τ → κ → Prop)
    (hiff : ∀ t key, Inv t → (Q t key ↔ C t key))
    (hkept : ∀ t key, Inv t → Q t key → Inv (n.step t key)) (start : τ) (hstart : Inv start)
    (keys : List κ) :
    (∀ front key, front ++ [key] <+: keys → Q (n.run start front) key) ↔
      ∀ front key, front ++ [key] <+: keys → C (n.run start front) key := by
  induction keys generalizing start with
  | nil =>
    have hnone : ∀ (front : List κ) (key : κ), ¬front ++ [key] <+: [] := by
      intro front key hprefix
      exact List.concat_ne_nil key front (List.prefix_nil.mp hprefix)
    exact iff_of_true (fun front key h => absurd h (hnone front key))
      fun front key h => absurd h (hnone front key)
  | cons first rest ih =>
    have hsplit : ∀ R : τ → κ → Prop,
        (∀ front key, front ++ [key] <+: first :: rest → R (n.run start front) key) ↔
          R start first ∧ ∀ front key, front ++ [key] <+: rest →
            R (n.run (n.step start first) front) key := by
      intro R
      constructor
      · intro h
        refine ⟨h [] first ⟨rest, rfl⟩, fun front key hprefix => ?_⟩
        exact h (first :: front) key (List.cons_prefix_cons.mpr ⟨rfl, hprefix⟩)
      · rintro ⟨hfirst, hrest⟩ front key hprefix
        cases front with
        | nil =>
          obtain ⟨rfl, -⟩ := List.cons_prefix_cons.mp hprefix
          exact hfirst
        | cons earlier front =>
          obtain ⟨rfl, hlater⟩ := List.cons_prefix_cons.mp hprefix
          exact hrest front key hlater
    rw [hsplit Q, hsplit C]
    constructor
    · rintro ⟨hfirst, hrest⟩
      exact ⟨(hiff start first hstart).mp hfirst,
        (ih _ (hkept start first hstart hfirst)).mp hrest⟩
    · rintro ⟨hfirst, hrest⟩
      have hQ := (hiff start first hstart).mpr hfirst
      exact ⟨hQ, (ih _ (hkept start first hstart hQ)).mpr hrest⟩

/-- What holds at the start for no input, and is kept when an input is recorded, holds after every
sequence of inputs for that sequence, the newest input first. -/
theorem TotalMachine.run_recorded (n : TotalMachine τ κ ω) (Rec : τ → List κ → Prop) (start : τ)
    (hstart : Rec start [])
    (hstep : ∀ t newest key, Rec t newest → Rec (n.step t key) (key :: newest)) (keys : List κ) :
    Rec (n.run start keys) keys.reverse := by
  induction keys using List.reverseRecOn with
  | nil => exact hstart
  | append_singleton earlier key ih =>
    rw [TotalMachine.run_append_singleton, List.reverse_append, List.reverse_singleton]
    exact hstep _ _ key ih

end Coursework.Transition
