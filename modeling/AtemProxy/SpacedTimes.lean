import Mathlib.Data.List.Basic
import Mathlib.Data.Nat.Basic

/-!
# Times that keep a distance

Successive times are at least a gap apart. Then a window of time holds no more of them
than gaps fit into it, and one. A timer with such a gap has that many firings left
before a deadline, and each firing uses one up.
-/

namespace AtemProxy.SpacedTimes

/-- Later times keep the gap to earlier ones. -/
def Spaced (gap : ℕ) (times : List ℕ) : Prop := times.Pairwise (fun s t => s+gap ≤ t)

/-- No times. -/
theorem spaced_nil (gap : ℕ) : Spaced gap [] := List.Pairwise.nil

/-- A time that keeps the gap to the last one keeps it to all of them. -/
theorem Spaced.snoc {gap : ℕ} {times : List ℕ} (h : Spaced gap times) {next : ℕ}
    (hnext : ∀ last,times.getLast?=some last → last+gap ≤ next) : Spaced gap (times++[next]) := by
  refine List.pairwise_append.mpr ⟨h,List.pairwise_singleton _ _,fun s hs t ht => ?_⟩
  rw [List.mem_singleton.mp ht]
  rcases List.eq_nil_or_concat times with rfl | ⟨early,last,rfl⟩
  · exact absurd hs List.not_mem_nil
  · rw [List.concat_eq_append] at h hs hnext
    have hlast := hnext last List.getLast?_concat
    rcases List.mem_append.mp hs with hearly | hnew
    · have hbefore := (List.pairwise_append.mp h).2.2 s hearly last (List.mem_singleton_self last)
      omega
    · rw [List.mem_singleton.mp hnew]
      exact hlast

/-- Between the first and the last of them fit the gaps between them. -/
theorem Spaced.extent {gap : ℕ} {times : List ℕ} (h : Spaced gap times) {first last : ℕ}
    (hfirst : ∀ t∈times,first ≤ t) (hlast : ∀ t∈times,t ≤ last) (hsome : times≠[]) :
    first+gap*(times.length-1) ≤ last := by
  induction times generalizing first with
  | nil => exact absurd rfl hsome
  | cons s times ih =>
    obtain ⟨hs,hrest⟩ := List.pairwise_cons.mp h
    have hstart := hfirst s List.mem_cons_self
    cases times with
    | nil => exact Nat.le_trans hstart (hlast s List.mem_cons_self)
    | cons next times =>
      have hnext := ih hrest hs (fun t ht => hlast t (List.mem_cons_of_mem _ ht))
        (List.cons_ne_nil next times)
      simp only [List.length_cons,Nat.add_sub_cancel] at hnext ⊢
      rw [Nat.mul_add,Nat.mul_one]
      omega

/-- A window holds at most as many of them as gaps fit into it, and one. -/
theorem Spaced.count_le {gap : ℕ} (hgap : 0<gap) {times : List ℕ} (h : Spaced gap times)
    (first length : ℕ) :
    (times.filter (fun t => decide (first ≤ t ∧ t ≤ first+length))).length ≤ length/gap+1 := by
  generalize hin : times.filter (fun t => decide (first ≤ t ∧ t ≤ first+length))=inside
  have hspaced : Spaced gap inside := hin ▸ List.Pairwise.sublist List.filter_sublist h
  have hmem : ∀ t∈inside,first ≤ t ∧ t ≤ first+length := fun t ht => by
    rw [←hin,List.mem_filter,decide_eq_true_eq] at ht
    exact ht.2
  by_cases hnone : inside=[]
  · rw [hnone]
    exact Nat.zero_le _
  · have hextent := hspaced.extent (fun t ht => (hmem t ht).1) (fun t ht => (hmem t ht).2) hnone
    have hgaps : inside.length-1 ≤ length/gap := by
      rw [Nat.le_div_iff_mul_le hgap,Nat.mul_comm]
      omega
    omega

/-- How often a timer that fires no earlier than `next` can fire up to the deadline. -/
def firings (gap deadline next : ℕ) : ℕ := (deadline+gap-next)/gap

/-- A timer whose pause is over since it fired last. -/
theorem add_le_of_pause {gap last now : ℕ} (hgap : 0<gap) (h : gap ≤ now-last) :
    last+gap ≤ now := by omega

/-- Firing uses one of them up. -/
theorem firings_fire {gap deadline next now : ℕ} (hgap : 0<gap) (hnext : next ≤ now)
    (hnow : now ≤ deadline) : 1+firings gap deadline (now+gap) ≤ firings gap deadline next := by
  have hleft : deadline+gap-(now+gap)=deadline-now := by omega
  have hone : 1+(deadline-now)/gap=(deadline-now+gap)/gap := by
    rw [Nat.add_div_right _ hgap]
    omega
  unfold firings
  rw [hleft,hone]
  exact Nat.div_le_div_right (by omega)

/-- A timer that may fire at once. -/
theorem firings_le {gap : ℕ} (hgap : 0<gap) (deadline first : ℕ) :
    firings gap deadline first ≤ (deadline-first)/gap+1 := by
  unfold firings
  rw [←Nat.add_div_right _ hgap]
  exact Nat.div_le_div_right (by omega)

end AtemProxy.SpacedTimes
