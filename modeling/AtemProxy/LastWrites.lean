import AtemProxy.KeyedMaps

/-!
# Sequences of keyed writes and their coalesced replay

The last write of a key decides its final value. Storing writes in an
insertion-ordered map keeps that value, but lists the keys by their
first write; replaying the map is therefore not replaying the writes
when two keys affect the same thing.
-/

namespace AtemProxy.LastWrites

open KeyedMaps

variable {κ ν : Type} [DecidableEq κ]

/-- Value of the last write of a key. -/
def lastFor (key : κ) : List (κ×ν) → Option ν
  | [] => none
  | write::writes => (lastFor key writes).or (if write.1=key then some write.2 else none)

/-- Without writes there is no last one. -/
@[simp]
theorem lastFor_nil (key : κ) : lastFor key ([] : List (κ×ν))=none := rfl

/-- Later writes take precedence over earlier ones. -/
theorem lastFor_append (key : κ) (first second : List (κ×ν)) :
    lastFor key (first++second)=(lastFor key second).or (lastFor key first) := by
  induction first with
  | nil => rw [List.nil_append,lastFor_nil,Option.or_none]
  | cons write first ih => rw [List.cons_append,lastFor,lastFor,ih,Option.or_assoc]

/-- The value of a last write is one that was written. -/
theorem mem_of_lastFor {key : κ} {value : ν} {writes : List (κ×ν)}
    (h : lastFor key writes=some value) : (key,value) ∈ writes := by
  induction writes with
  | nil => cases h
  | cons write writes ih =>
    rw [lastFor] at h
    cases hl : lastFor key writes with
    | some v =>
      rw [hl] at h
      cases h
      exact List.mem_cons_of_mem _ (ih hl)
    | none =>
      rw [hl,Option.none_or] at h
      split at h
      · rename_i hk
        cases h
        cases hk
        exact List.mem_cons_self
      · cases h

/-- A key without last write was never written. -/
theorem lastFor_eq_none_iff {key : κ} {writes : List (κ×ν)} :
    lastFor key writes=none ↔ ∀ value, (key,value) ∉ writes := by
  constructor
  · intro h value hm
    induction writes with
    | nil => exact absurd hm (List.not_mem_nil)
    | cons write writes ih =>
      rw [lastFor,Option.or_eq_none_iff] at h
      rcases List.mem_cons.mp hm with he | hm
      · rw [←he,if_pos rfl] at h
        cases h.2
      · exact ih h.1 hm
  · intro h
    cases hl : lastFor key writes with
    | none => rfl
    | some value => exact absurd (mem_of_lastFor hl) (h value)

/-- Writes to distinct keys are each the last one of their key. -/
theorem lastFor_of_nodup {writes : List (κ×ν)} (hn : (writes.map Prod.fst).Nodup)
    {key : κ} {value : ν} (h : (key,value) ∈ writes) : lastFor key writes=some value := by
  induction writes with
  | nil => exact absurd h (List.not_mem_nil)
  | cons write writes ih =>
    rw [List.map_cons,List.nodup_cons] at hn
    rw [lastFor]
    rcases List.mem_cons.mp h with he | hm
    · subst he
      have hnone : lastFor key writes=none := lastFor_eq_none_iff.mpr (fun v hv =>
        hn.1 (List.mem_map.mpr ⟨_,hv,rfl⟩))
      rw [hnone,if_pos rfl]
      rfl
    · rw [ih hn.2 hm]
      rfl

/-- Store writes in order. -/
def insertAll (m : OrderedMap κ ν) (writes : List (κ×ν)) : OrderedMap κ ν :=
  writes.foldl (fun m write => m.insert write.1 write.2) m

/-- Writes are inserted one after the other. -/
theorem insertAll_append (m : OrderedMap κ ν) (first second : List (κ×ν)) :
    insertAll m (first++second)=insertAll (insertAll m first) second := List.foldl_append

/-- A stored key has the value of its last write. -/
theorem get?_insertAll (m : OrderedMap κ ν) (writes : List (κ×ν)) (key : κ) :
    (insertAll m writes).get? key=(lastFor key writes).or (m.get? key) := by
  induction writes generalizing m with
  | nil => rw [lastFor_nil,Option.none_or]; rfl
  | cons write writes ih =>
    have hstep : insertAll m (write::writes)=insertAll (m.insert write.1 write.2) writes := rfl
    rw [hstep,ih,lastFor,Option.or_assoc]
    congr 1
    by_cases hk : write.1=key
    · subst hk
      rw [OrderedMap.get?_insert_self,if_pos rfl]
      rfl
    · rw [OrderedMap.get?_insert_of_ne _ (fun h => hk h.symm),if_neg hk]
      rfl

/-- Keys that do not occur in the given ones, in order of first occurrence. -/
def newKeys (seen : List κ) : List κ → List κ
  | [] => []
  | key::keys => if key ∈ seen then newKeys seen keys else key::newKeys (seen++[key]) keys

/-- Stored keys are listed by first write. -/
theorem keys_insertAll (m : OrderedMap κ ν) (writes : List (κ×ν)) :
    (insertAll m writes).entries.map Prod.fst=
      m.entries.map Prod.fst++newKeys (m.entries.map Prod.fst) (writes.map Prod.fst) := by
  induction writes generalizing m with
  | nil => exact (List.append_nil _).symm
  | cons write writes ih =>
    have hstep : insertAll m (write::writes)=insertAll (m.insert write.1 write.2) writes := rfl
    have hkeys : (m.insert write.1 write.2).entries.map Prod.fst=
        if write.1 ∈ m.entries.map Prod.fst then m.entries.map Prod.fst
        else m.entries.map Prod.fst++[write.1] := upsertEntries_keys write.1 _ m.entries
    rw [hstep,ih,hkeys,List.map_cons,newKeys]
    split
    · rfl
    · rw [List.append_assoc,List.singleton_append]

/-- Keys by first occurrence are the keys without later repetitions. -/
theorem newKeys_eq_eraseDups (seen keys : List κ) :
    newKeys seen keys=(keys.filter (fun key => decide (key ∉ seen))).eraseDups := by
  induction keys generalizing seen with
  | nil => rfl
  | cons key keys ih =>
    rw [newKeys]
    by_cases hs : key ∈ seen
    · rw [if_pos hs,List.filter_cons_of_neg (by simp [hs]),ih]
    · rw [if_neg hs,List.filter_cons_of_pos (by simp [hs]),List.eraseDups_cons,ih,
        List.filter_filter]
      congr 2
      apply List.filter_congr
      intro other _
      by_cases he : other=key <;> simp [he]

/-- The last write of a key ends the list of its writes. -/
theorem lastFor_eq_getLast? (key : κ) (writes : List (κ×ν)) :
    lastFor key writes=((writes.filter (fun write => decide (write.1=key))).getLast?).map
      Prod.snd := by
  induction writes with
  | nil => rfl
  | cons write writes ih =>
    rw [lastFor,ih]
    by_cases hk : write.1=key
    · rw [List.filter_cons_of_pos (by simp [hk]),List.getLast?_cons,if_pos hk]
      cases (writes.filter (fun write => decide (write.1=key))).getLast? <;> rfl
    · rw [List.filter_cons_of_neg (by simp [hk]),if_neg hk,Option.or_none]

/-- A map lists the value of each of its keys. -/
theorem values_eq_filterMap (m : OrderedMap κ ν) :
    m.values=(m.entries.map Prod.fst).filterMap m.get? := by
  have hall : ∀ entries : List (κ×ν), (∀ e ∈ entries, e ∈ m.entries) →
      entries.map Prod.snd=(entries.map Prod.fst).filterMap m.get? := by
    intro entries
    induction entries with
    | nil => exact fun _ => rfl
    | cons entry entries ih =>
      intro hm
      have hget : m.get? entry.1=some entry.2 :=
        (m.get?_eq_some_iff _ _).mpr (hm entry List.mem_cons_self)
      rw [List.map_cons,List.map_cons,List.filterMap_cons_some hget,
        ih (fun e he => hm e (List.mem_cons_of_mem _ he))]
  exact hall m.entries (fun _ he => he)

/-- Stored writes are listed by first occurrence of their key, each with
its last value. -/
theorem values_insertAll_empty (writes : List (κ×ν)) :
    (insertAll OrderedMap.empty writes).values=
      (writes.map Prod.fst).eraseDups.filterMap (fun key => lastFor key writes) := by
  have hkeys := keys_insertAll (OrderedMap.empty : OrderedMap κ ν) writes
  have hnone : (OrderedMap.empty : OrderedMap κ ν).entries.map Prod.fst=[] := rfl
  have hall : (writes.map Prod.fst).filter (fun key => decide (key ∉ ([] : List κ)))=
      writes.map Prod.fst := List.filter_eq_self.mpr (by simp)
  rw [hnone,List.nil_append,newKeys_eq_eraseDups,hall] at hkeys
  rw [values_eq_filterMap,hkeys]
  apply List.filterMap_congr
  intro key _
  rw [get?_insertAll,OrderedMap.get?_empty,Option.or_none]

/-- Selecting keys commutes with listing them by first occurrence. -/
theorem newKeys_filter (p : κ → Bool) (seen keys : List κ) :
    (newKeys seen keys).filter p=newKeys (seen.filter p) (keys.filter p) := by
  induction keys generalizing seen with
  | nil => rfl
  | cons key keys ih =>
    rw [newKeys]
    by_cases hp : p key=true
    · rw [List.filter_cons_of_pos hp,newKeys]
      by_cases hs : key ∈ seen
      · rw [if_pos hs,if_pos (List.mem_filter.mpr ⟨hs,hp⟩),ih]
      · rw [if_neg hs,if_neg (fun h => hs (List.mem_filter.mp h).1),List.filter_cons_of_pos hp,ih,
          List.filter_append,List.filter_cons_of_pos hp,List.filter_nil]
    · rw [List.filter_cons_of_neg hp]
      by_cases hs : key ∈ seen
      · rw [if_pos hs,ih]
      · rw [if_neg hs,List.filter_cons_of_neg hp,ih,List.filter_append,
          List.filter_cons_of_neg hp,List.filter_nil,List.append_nil]

/-- Apply writes in order to a total assignment. -/
def applyWrites (state : κ → Option ν) (writes : List (κ×ν)) : κ → Option ν :=
  writes.foldl (fun state write => Function.update state write.1 (some write.2)) state

/-- A total assignment ends with the last write of each key. -/
theorem applyWrites_eq (state : κ → Option ν) (writes : List (κ×ν)) (key : κ) :
    applyWrites state writes key=(lastFor key writes).or (state key) := by
  induction writes generalizing state with
  | nil => rw [lastFor_nil,Option.none_or]; rfl
  | cons write writes ih =>
    have hstep : applyWrites state (write::writes)=
        applyWrites (Function.update state write.1 (some write.2)) writes := rfl
    rw [hstep,ih,lastFor,Option.or_assoc]
    congr 1
    by_cases hk : write.1=key
    · subst hk
      rw [Function.update_self,if_pos rfl]
      rfl
    · rw [Function.update_of_ne (fun h => hk h.symm),if_neg hk]
      rfl

end AtemProxy.LastWrites
