import Mathlib.Algebra.GroupWithZero.Nat
import Mathlib.Data.List.Basic

/-!
# Runs of a guarded transition function

An action may be disabled in a state. A run executes a list of actions
and exists only when each one is enabled where it is taken. Invariants
are carried from one step to every run, and a condition on the steps of a
run is stated in the state each step is taken from.
-/

namespace AtemProxy.GuardedRuns

variable {S A : Type} (step : S → A → Option S)

/-- State after the actions, if every one of them was enabled. -/
def run (s : S) (acts : List A) : Option S := acts.foldlM step s

/-- The empty run stays. -/
@[simp]
theorem run_nil (s : S) : run step s []=some s := rfl

/-- A run starts with its first action. -/
theorem run_cons (s : S) (a : A) (acts : List A) :
    run step s (a::acts)=(step s a).bind (fun t => run step t acts) := rfl

/-- A run of several actions is a step and a run. -/
theorem run_cons_eq_some {s u : S} {a : A} {acts : List A} :
    run step s (a::acts)=some u ↔ ∃ t, step s a=some t ∧ run step t acts=some u := by
  rw [run_cons,Option.bind_eq_some_iff]

/-- What every enabled step preserves holds after every run. -/
theorem run_invariant {Inv : S → Prop}
    (hstep : ∀ s a t, Inv s → step s a=some t → Inv t) {s t : S} {acts : List A}
    (hs : Inv s) (hr : run step s acts=some t) : Inv t := by
  induction acts generalizing s with
  | nil =>
    rw [run_nil,Option.some.injEq] at hr
    exact hr ▸ hs
  | cons a acts ih =>
    obtain ⟨u,hu,hr⟩ := (run_cons_eq_some step).mp hr
    exact ih (hstep s a u hs hu) hr

/-- Every action of the run meets the condition in the state it is taken from. -/
def Meets (ok : S → A → Prop) : S → List A → Prop
  | _,[] => True
  | s,a::acts => ok s a ∧ ∀ t, step s a=some t → Meets ok t acts

/-- Every state of the run, the first and the last one included, satisfies the property. -/
def Always (P : S → Prop) : S → List A → Prop
  | s,[] => P s
  | s,a::acts => P s ∧ ∀ t, step s a=some t → Always P t acts

/-- What conditioned steps preserve holds in every state of a conditioned run. -/
theorem always_of_meets {Inv : S → Prop} {ok : S → A → Prop}
    (hstep : ∀ s a t, Inv s → ok s a → step s a=some t → Inv t) {s : S} {acts : List A}
    (hs : Inv s) (hm : Meets step ok s acts) : Always step Inv s acts := by
  induction acts generalizing s with
  | nil => exact hs
  | cons a acts ih => exact ⟨hs,fun t ht => ih (hstep s a t hs hm.1 ht) (hm.2 t ht)⟩

/-- What every enabled step preserves holds in every state of every run. -/
theorem always_of_invariant {Inv : S → Prop}
    (hstep : ∀ s a t, Inv s → step s a=some t → Inv t) {s : S} (hs : Inv s) (acts : List A) :
    Always step Inv s acts := by
  induction acts generalizing s with
  | nil => exact hs
  | cons a acts ih => exact ⟨hs,fun t ht => ih (hstep s a t hs ht)⟩

/-- What an invariant of conditioned steps implies about each step is met by
every conditioned run. -/
theorem meets_of_invariant {Inv : S → Prop} {ok good : S → A → Prop}
    (hstep : ∀ s a t, Inv s → ok s a → step s a=some t → Inv t)
    (hgood : ∀ s a, Inv s → ok s a → good s a) {s : S} {acts : List A} (hs : Inv s)
    (hm : Meets step ok s acts) : Meets step good s acts := by
  induction acts generalizing s with
  | nil => exact trivial
  | cons a acts ih =>
    exact ⟨hgood s a hs hm.1,fun t ht => ih (hstep s a t hs hm.1 ht) (hm.2 t ht)⟩

/-- A decidable condition is decided along a run. -/
instance decidableMeets {ok : S → A → Prop} [∀ s a, Decidable (ok s a)] :
    ∀ (s : S) (acts : List A), Decidable (Meets step ok s acts)
  | _,[] => isTrue trivial
  | s,a::acts =>
    match h : step s a with
    | none => decidable_of_iff (ok s a) ⟨fun hok => ⟨hok,fun _ ht => by rw [h] at ht; cases ht⟩,
        fun hm => hm.1⟩
    | some t =>
      have : Decidable (Meets step ok t acts) := decidableMeets t acts
      decidable_of_iff (ok s a ∧ Meets step ok t acts) ⟨fun hm => ⟨hm.1,fun u hu => by
        rw [h,Option.some.injEq] at hu
        exact hu ▸ hm.2⟩,fun hm => ⟨hm.1,hm.2 t h⟩⟩

/-- A weaker property holds in every state as well. -/
theorem Always.mono {P Q : S → Prop} (himp : ∀ s,P s → Q s) {s : S} {acts : List A}
    (h : Always step P s acts) : Always step Q s acts := by
  induction acts generalizing s with
  | nil => exact himp s h
  | cons a acts ih => exact ⟨himp s h.1,fun t ht => ih (h.2 t ht)⟩

/-- The first state of a run is one of its states. -/
theorem Always.first {P : S → Prop} {s : S} {acts : List A} (h : Always step P s acts) : P s := by
  cases acts with
  | nil => exact h
  | cons a acts => exact h.1

/-- The last state of a run is one of its states. -/
theorem Always.last {P : S → Prop} {s t : S} {acts : List A}
    (h : Always step P s acts) (hr : run step s acts=some t) : P t := by
  induction acts generalizing s with
  | nil =>
    rw [run_nil,Option.some.injEq] at hr
    exact hr ▸ h
  | cons a acts ih =>
    obtain ⟨u,hu,hr⟩ := (run_cons_eq_some step).mp hr
    exact ih (h.2 u hu) hr

/-- When a step keeps the property exactly under its condition, the states of a
run all have the property exactly when its enabled steps all meet the condition. -/
theorem always_iff_meets {P : S → Prop} {ok : S → A → Prop}
    (hstep : ∀ s a t, P s → step s a=some t → (P t ↔ ok s a)) {s : S} {acts : List A}
    (hs : P s) :
    Always step P s acts ↔ Meets step (fun s a => ∀ t, step s a=some t → ok s a) s acts := by
  induction acts generalizing s with
  | nil => exact ⟨fun _ => trivial,fun _ => hs⟩
  | cons a acts ih =>
    constructor
    · rintro ⟨_,h⟩
      have hp : ∀ t, step s a=some t → P t := fun t ht => by
        have ha := h t ht
        cases acts with
        | nil => exact ha
        | cons b acts => exact ha.1
      exact ⟨fun t ht => (hstep s a t hs ht).mp (hp t ht),
        fun t ht => (ih (hp t ht)).mp (h t ht)⟩
    · rintro ⟨hok,h⟩
      refine ⟨hs,fun t ht => ?_⟩
      exact (ih ((hstep s a t hs ht).mpr (hok t ht))).mpr (h t ht)

/-- Without disabled actions the condition is read in every state of the run. -/
theorem meets_iff_of_total {ok : S → A → Prop} (htotal : ∀ s a, ∃ t, step s a=some t) {s : S}
    {acts : List A} :
    Meets step (fun s a => ∀ t, step s a=some t → ok s a) s acts ↔ Meets step ok s acts := by
  induction acts generalizing s with
  | nil => exact Iff.rfl
  | cons a acts ih =>
    simp only [Meets,ih]
    obtain ⟨u,hu⟩ := htotal s a
    exact and_congr_left (fun _ => ⟨fun h => h u hu,fun h _ _ => h⟩)

/-- Equivalent conditions are met by the same runs. -/
theorem meets_congr {ok good : S → A → Prop} (h : ∀ s a, ok s a ↔ good s a) {s : S}
    {acts : List A} : Meets step ok s acts ↔ Meets step good s acts := by
  induction acts generalizing s with
  | nil => exact Iff.rfl
  | cons a acts ih =>
    exact and_congr (h s a) (forall_congr' fun _ => forall_congr' fun _ => ih)

/-- A condition is met by a concatenation when both parts meet it. -/
theorem meets_append {ok : S → A → Prop} {s : S} {first second : List A} :
    Meets step ok s (first++second) ↔
      Meets step ok s first ∧ ∀ t, run step s first=some t → Meets step ok t second := by
  induction first generalizing s with
  | nil =>
    simp only [List.nil_append,Meets,run_nil,Option.some.injEq,true_and,forall_eq']
  | cons a first ih =>
    simp only [List.cons_append,Meets,ih,run_cons_eq_some]
    constructor
    · rintro ⟨hok,h⟩
      refine ⟨⟨hok,fun t ht => (h t ht).1⟩,?_⟩
      rintro u ⟨t,ht,hu⟩
      exact (h t ht).2 u hu
    · rintro ⟨⟨hok,h⟩,hlater⟩
      exact ⟨hok,fun t ht => ⟨h t ht,fun u hu => hlater u ⟨t,ht,hu⟩⟩⟩

/-- A condition that holds of its actions in every state is met. -/
theorem meets_of_forall {ok : S → A → Prop} {acts : List A} (h : ∀ a∈acts,∀ s,ok s a) (s : S) :
    Meets step ok s acts := by
  induction acts generalizing s with
  | nil => exact trivial
  | cons a acts ih =>
    exact ⟨h a List.mem_cons_self s,fun t _ =>
      ih (fun b hb => h b (List.mem_cons_of_mem _ hb)) t⟩

/-- The same when the step needs an invariant of all runs besides the property. -/
theorem always_iff_meets_of_invariant {Inv P : S → Prop} {ok : S → A → Prop}
    (hinv : ∀ s a t, Inv s → step s a=some t → Inv t)
    (hstep : ∀ s a t, Inv s → P s → step s a=some t → (P t ↔ ok s a)) {s : S} {acts : List A}
    (hs : Inv s) (hp : P s) :
    Always step P s acts ↔ Meets step (fun s a => ∀ t, step s a=some t → ok s a) s acts := by
  have hboth : Always step (fun s => Inv s ∧ P s) s acts ↔
      Meets step (fun s a => ∀ t, step s a=some t → ok s a) s acts := by
    refine always_iff_meets step ?_ ⟨hs,hp⟩
    intro s a t h ht
    rw [←hstep s a t h.1 h.2 ht]
    exact ⟨And.right,fun h' => ⟨hinv s a t h.1 ht,h'⟩⟩
  rw [←hboth]
  constructor
  · intro h
    clear hboth hp
    induction acts generalizing s with
    | nil => exact ⟨hs,h⟩
    | cons a acts ih => exact ⟨⟨hs,h.1⟩,fun t ht => ih (hinv s a t hs ht) (h.2 t ht)⟩
  · exact Always.mono step (fun _ h => h.2)

/-- When a good next state shows that the step met its condition, a run through
good states meets the condition at every step of the given kind. -/
theorem meets_of_always {Inv P : S → Prop} {ok : S → A → Prop} {kind : A → Prop}
    (htotal : ∀ s a, ∃ t, step s a=some t)
    (hok : ∀ s a t, kind a → Inv s → step s a=some t → P t → ok s a)
    (hinv : ∀ s a t, Inv s → ok s a → step s a=some t → Inv t) {s : S} {acts : List A}
    (hkind : ∀ a∈acts,kind a) (hs : Inv s) (h : Always step P s acts) : Meets step ok s acts := by
  induction acts generalizing s with
  | nil => exact trivial
  | cons a acts ih =>
    obtain ⟨t,ht⟩ := htotal s a
    have hnext := h.2 t ht
    have hp : P t := by
      cases acts with
      | nil => exact hnext
      | cons b acts => exact hnext.1
    have ha := hok s a t (hkind a List.mem_cons_self) hs ht hp
    refine ⟨ha,fun u hu => ih (fun b hb => hkind b (List.mem_cons_of_mem _ hb))
      (hinv s a u hs ha hu) (h.2 u hu)⟩

/-- A run of two parts. -/
theorem run_append {s : S} {first second : List A} :
    run step s (first++second)=(run step s first).bind (fun t => run step t second) := by
  unfold run
  rw [List.foldlM_append]
  rfl

/-- What the steps of a run put out, each in the state it is taken from. -/
def outputs {B : Type} (out : S → A → List B) : S → List A → List B
  | _,[] => []
  | s,a::acts =>
    out s a++
      match step s a with
      | none => []
      | some t => outputs out t acts

/-- The first step puts out first. -/
theorem outputs_cons {B : Type} {out : S → A → List B} {s t : S} {a : A} (h : step s a=some t)
    (acts : List A) : outputs step out s (a::acts)=out s a++outputs step out t acts := by
  rw [outputs,h]

/-- The same for a function that selects items. -/
theorem outputs_filterMap {B C : Type} (f : B → Option C) (out : S → A → List B) (s : S)
    (acts : List A) :
    outputs step (fun s a => (out s a).filterMap f) s acts=
      (outputs step out s acts).filterMap f := by
  induction acts generalizing s with
  | nil => rfl
  | cons a acts ih =>
    rw [outputs,outputs,List.filterMap_append]
    cases step s a with
    | none => rfl
    | some t => exact congrArg (fun later => (out s a).filterMap f++later) (ih t)

/-- When every step puts out the oldest items due and what it takes in is due last, a run
puts out what was due and what it took in, in this order, up to what is still due. -/
theorem run_conserves {B : Type} {out taken : S → A → List B} {due : S → List B} {P : S → Prop}
    (hstep : ∀ s a t,step s a=some t → P s → P t → out s a++due t=due s++taken s a)
    {s u : S} {acts : List A} (hs : Always step P s acts) (hr : run step s acts=some u) :
    outputs step out s acts++due u=due s++outputs step taken s acts := by
  induction acts generalizing s with
  | nil =>
    rw [run_nil,Option.some.injEq] at hr
    rw [hr]
    exact (List.append_nil _).symm
  | cons a acts ih =>
    obtain ⟨t,ht,hr⟩ := (run_cons_eq_some step).mp hr
    have hlater := ih (hs.2 t ht) hr
    have hnow := hstep s a t ht hs.1 (Always.first step (hs.2 t ht))
    rw [outputs_cons step ht,outputs_cons step ht,List.append_assoc,hlater,←List.append_assoc,
      hnow,List.append_assoc]

/-- What every step of a kind keeps about the state and everything put out so far holds
after every run of such steps. -/
theorem run_outputs {B : Type} {out : S → A → List B} (ok : A → Prop)
    (Inv : S → List B → Prop)
    (hstep : ∀ s a t so,ok a → Inv s so → step s a=some t → Inv t (so++out s a))
    {s t : S} {acts : List A} {so : List B} (hacts : ∀ a∈acts,ok a) (hs : Inv s so)
    (hr : run step s acts=some t) : Inv t (so++outputs step out s acts) := by
  induction acts generalizing s so with
  | nil =>
    rw [run_nil,Option.some.injEq] at hr
    rw [outputs,List.append_nil]
    exact hr ▸ hs
  | cons a acts ih =>
    obtain ⟨u,hu,hr⟩ := (run_cons_eq_some step).mp hr
    have hnext := hstep s a u so (hacts a List.mem_cons_self) hs hu
    rw [outputs_cons step hu,←List.append_assoc]
    exact ih (fun b hb => hacts b (List.mem_cons_of_mem _ hb)) hnext hr

/-- When every step of a kind pays for what it puts out, and for what the next state
owes, with what it takes in and what its state owed, so does every run of such steps. -/
theorem run_balance {B C : Type} (out : S → A → List B) (taken : S → A → List C) (cost : B → ℕ)
    (price : C → ℕ) (owed : S → ℕ) (ok : A → Prop) (Inv : S → Prop)
    (hstep : ∀ s a t,ok a → Inv s → step s a=some t → Inv t ∧
      ((out s a).map cost).sum+owed t ≤ ((taken s a).map price).sum+owed s)
    {s t : S} {acts : List A} (hacts : ∀ a∈acts,ok a) (hs : Inv s)
    (hr : run step s acts=some t) :
    ((outputs step out s acts).map cost).sum+owed t ≤
      ((outputs step taken s acts).map price).sum+owed s := by
  induction acts generalizing s with
  | nil =>
    rw [run_nil,Option.some.injEq] at hr
    exact hr ▸ Nat.le.refl
  | cons a acts ih =>
    obtain ⟨u,hu,hr⟩ := (run_cons_eq_some step).mp hr
    obtain ⟨hinv,hnow⟩ := hstep s a u (hacts a List.mem_cons_self) hs hu
    have hlater := ih (fun b hb => hacts b (List.mem_cons_of_mem _ hb)) hinv hr
    rw [outputs_cons step hu,outputs_cons step hu,List.map_append,List.map_append,
      List.sum_append,List.sum_append]
    omega

/-- Such steps lead from every state to one in which none of them is enabled. -/
theorem exists_run_to_stuck {work : S → ℕ} (ok : A → Prop)
    (hstep : ∀ s a t,ok a → step s a=some t → work t<work s) (s : S) :
    ∃ acts t,(∀ a∈acts,ok a) ∧ run step s acts=some t ∧ ∀ a,ok a → step t a=none := by
  induction hwork : work s using Nat.strongRecOn generalizing s with
  | ind n ih =>
    by_cases hstuck : ∀ a,ok a → step s a=none
    · exact ⟨[],s,fun _ hm => absurd hm List.not_mem_nil,rfl,hstuck⟩
    · simp only [not_forall] at hstuck
      obtain ⟨a,ha,hne⟩ := hstuck
      obtain ⟨u,hu⟩ := Option.ne_none_iff_exists'.mp hne
      have hless := hstep s a u ha hu
      rw [hwork] at hless
      obtain ⟨acts,t,hacts,hrun,hend⟩ := ih (work u) hless u rfl
      refine ⟨a::acts,t,fun b hb => ?_,(run_cons_eq_some step).mpr ⟨u,hu,hrun⟩,hend⟩
      rcases List.mem_cons.mp hb with rfl | hb
      · exact ha
      · exact hacts b hb

/-- When every step from a state with an invariant is enabled and known, the run
exists and is a fold. -/
theorem run_eq_foldl {Inv : S → Prop} {next : S → A → S}
    (hstep : ∀ s a, Inv s → step s a=some (next s a)) (hinv : ∀ s a, Inv s → Inv (next s a))
    (acts : List A) {s : S} (hs : Inv s) :
    run step s acts=some (acts.foldl next s) ∧ Inv (acts.foldl next s) := by
  induction acts generalizing s with
  | nil => exact ⟨rfl,hs⟩
  | cons a acts ih =>
    rw [run_cons,hstep s a hs]
    exact ih (hinv s a hs)

/-- When every step keeps a property or breaks it, a run keeps it or one of its
steps breaks it in the state that it finds. -/
theorem foldl_kept_or_broken (next : S → A → S) (Keeps : S → Prop) {Breaks : S → A → Prop}
    (hstep : ∀ s a, Keeps s → Keeps (next s a) ∨ Breaks s a) (acts : List A) {s : S}
    (hs : Keeps s) :
    Keeps (acts.foldl next s) ∨
      ∃ early a late, acts=early++a::late ∧ Breaks (early.foldl next s) a := by
  induction acts generalizing s with
  | nil => exact Or.inl hs
  | cons a acts ih =>
    rcases hstep s a hs with hk | hb
    · rcases ih hk with hk | ⟨early,breaking,late,rfl,hb⟩
      · exact Or.inl hk
      · exact Or.inr ⟨a::early,breaking,late,rfl,hb⟩
    · exact Or.inr ⟨[],a,acts,rfl,hb⟩

end AtemProxy.GuardedRuns
