import Mathlib.Data.List.Nodup
import Mathlib.Data.Prod.Basic

/-!
# Insertion-ordered finite maps

A finite map that remembers the order in which its keys were first
inserted. Updating a present key keeps its position; a new key goes to
the end. Distinctness of keys is a field, so every lookup has one answer
and no operation has to re-establish it at its call sites.
-/

namespace AtemProxy.KeyedMaps

variable {κ ν : Type}

/-- Finite map with distinct keys in first-insertion order. -/
structure OrderedMap (κ ν : Type) where
  /-- Key-value pairs, oldest key first. -/
  entries : List (κ×ν)
  /-- No key occurs twice. -/
  nodup : (entries.map Prod.fst).Nodup

/-- A map is its list of entries. -/
@[ext]
theorem OrderedMap.ext {m n : OrderedMap κ ν} (h : m.entries=n.entries) : m=n := by
  cases m
  cases n
  cases h
  rfl

instance [DecidableEq κ] [DecidableEq ν] : DecidableEq (OrderedMap κ ν) := fun m n =>
  decidable_of_iff (m.entries=n.entries) ⟨OrderedMap.ext,fun h => h ▸ rfl⟩

/-- Replace the value of a present key in place, or append a new key. -/
def upsertEntries [DecidableEq κ] (key : κ) (update : Option ν → ν) :
    List (κ×ν) → List (κ×ν)
  | [] => [(key,update none)]
  | entry::entries =>
    if entry.1=key then (key,update (some entry.2))::entries
    else entry::upsertEntries key update entries

/-- Updating keeps the key order and appends exactly the missing key. -/
theorem upsertEntries_keys [DecidableEq κ] (key : κ) (update : Option ν → ν)
    (entries : List (κ×ν)) :
    (upsertEntries key update entries).map Prod.fst=
      if key ∈ entries.map Prod.fst then entries.map Prod.fst
      else entries.map Prod.fst++[key] := by
  induction entries with
  | nil => rfl
  | cons entry entries ih =>
    by_cases he : entry.1=key
    · simp only [upsertEntries,List.map_cons,he,List.mem_cons_self,if_true]
    · have hk : ¬key=entry.1 := fun h => he h.symm
      simp only [upsertEntries,if_neg he,List.map_cons,ih,List.mem_cons,hk,false_or]
      split <;> rfl

/-- An update keeps the keys distinct. -/
theorem upsertEntries_nodup [DecidableEq κ] (key : κ) (update : Option ν → ν)
    {entries : List (κ×ν)} (h : (entries.map Prod.fst).Nodup) :
    ((upsertEntries key update entries).map Prod.fst).Nodup := by
  rw [upsertEntries_keys]
  split
  · exact h
  · rename_i hk
    exact List.nodup_append.mpr ⟨h,List.nodup_singleton key,by
      intro a ha b hb
      rw [List.mem_singleton] at hb
      rintro rfl
      exact hk (hb ▸ ha)⟩

namespace OrderedMap

/-- The map without keys. -/
def empty : OrderedMap κ ν := ⟨[],List.nodup_nil⟩

/-- Value stored at a key. -/
def get? [DecidableEq κ] (m : OrderedMap κ ν) (key : κ) : Option ν := m.entries.lookup key

/-- Stored values, oldest key first. -/
def values (m : OrderedMap κ ν) : List ν := m.entries.map Prod.snd

/-- Update or create the entry of one key. -/
def upsert [DecidableEq κ] (m : OrderedMap κ ν) (key : κ) (update : Option ν → ν) :
    OrderedMap κ ν :=
  ⟨upsertEntries key update m.entries,upsertEntries_nodup key update m.nodup⟩

/-- Store a value, replacing an earlier one in place. -/
def insert [DecidableEq κ] (m : OrderedMap κ ν) (key : κ) (value : ν) : OrderedMap κ ν :=
  m.upsert key (fun _ => value)

/-- Remove one key. -/
def erase [DecidableEq κ] (m : OrderedMap κ ν) (key : κ) : OrderedMap κ ν :=
  ⟨m.entries.filter (fun entry => entry.1≠key),
    (List.Sublist.map _ List.filter_sublist).nodup m.nodup⟩

/-- Replace every value by a function of its key and old value. -/
def mapValues {ω : Type} (m : OrderedMap κ ν) (f : κ → ν → ω) : OrderedMap κ ω :=
  ⟨m.entries.map (fun entry => (entry.1,f entry.1 entry.2)),by
    rw [List.map_map]
    exact m.nodup⟩

variable [DecidableEq κ]

/-- The empty map has no entries. -/
@[simp]
theorem get?_empty (key : κ) : (empty : OrderedMap κ ν).get? key=none := rfl

/-- Lookup is membership of the one entry with that key. -/
theorem get?_eq_some_iff (m : OrderedMap κ ν) (key : κ) (value : ν) :
    m.get? key=some value ↔ (key,value) ∈ m.entries := by
  obtain ⟨entries,hn⟩ := m
  unfold get?
  dsimp only
  induction entries with
  | nil => simp
  | cons entry entries ih =>
    obtain ⟨k,v⟩ := entry
    rw [List.map_cons,List.nodup_cons] at hn
    rw [List.lookup_cons]
    by_cases hk : key=k
    · subst hk
      have habs : (key,value) ∉ entries := fun hm => hn.1 (List.mem_map.mpr ⟨_,hm,rfl⟩)
      simp only [beq_self_eq_true,List.mem_cons,Prod.mk.injEq,true_and,habs,or_false,
        Option.some.injEq]
      exact eq_comm
    · have hb : (key==k)=false := beq_false_of_ne hk
      simp only [hb,List.mem_cons,Prod.mk.injEq,hk,false_and,false_or]
      exact ih hn.2

/-- An update changes the entry of its own key only. -/
theorem get?_upsert (m : OrderedMap κ ν) (key other : κ) (update : Option ν → ν) :
    (m.upsert key update).get? other=
      if other=key then some (update (m.get? key)) else m.get? other := by
  obtain ⟨entries,hn⟩ := m
  unfold get? upsert
  dsimp only
  clear hn
  induction entries with
  | nil =>
    by_cases ho : other=key <;> simp [upsertEntries,ho]
  | cons entry entries ih =>
    obtain ⟨k,v⟩ := entry
    by_cases he : k=key
    · subst he
      by_cases ho : other=k
      · subst ho
        simp [upsertEntries]
      · have hb : (other==k)=false := beq_false_of_ne ho
        simp [upsertEntries,List.lookup_cons,hb,ho]
    · have hk : (key==k)=false := beq_false_of_ne (fun h => he h.symm)
      simp only [upsertEntries,if_neg he,List.lookup_cons,ih,hk]
      by_cases ho : other=k
      · subst ho
        simp [he]
      · have hb : (other==k)=false := beq_false_of_ne ho
        simp [hb]

/-- The key that is updated. -/
@[simp]
theorem get?_upsert_self (m : OrderedMap κ ν) (key : κ) (update : Option ν → ν) :
    (m.upsert key update).get? key=some (update (m.get? key)) := by
  rw [get?_upsert,if_pos rfl]

/-- Every other key. -/
theorem get?_upsert_of_ne (m : OrderedMap κ ν) {key other : κ} (h : other≠key)
    (update : Option ν → ν) : (m.upsert key update).get? other=m.get? other := by
  rw [get?_upsert,if_neg h]

/-- The key that is inserted. -/
@[simp]
theorem get?_insert_self (m : OrderedMap κ ν) (key : κ) (value : ν) :
    (m.insert key value).get? key=some value := by
  unfold insert
  rw [get?_upsert_self]

/-- Every other key. -/
theorem get?_insert_of_ne (m : OrderedMap κ ν) {key other : κ} (h : other≠key) (value : ν) :
    (m.insert key value).get? other=m.get? other := m.get?_upsert_of_ne h _

/-- Removal affects its own key only. -/
theorem get?_erase (m : OrderedMap κ ν) (key other : κ) :
    (m.erase key).get? other=if other=key then none else m.get? other := by
  apply Option.ext
  intro value
  by_cases ho : other=key
  · subst ho
    rw [if_pos rfl,get?_eq_some_iff]
    simp [erase]
  · rw [if_neg ho,get?_eq_some_iff,get?_eq_some_iff]
    simp [erase,ho]

/-- Removing several keys affects these keys only. -/
theorem get?_eraseAll (m : OrderedMap κ ν) (keys : List κ) (key : κ) :
    (keys.foldl erase m).get? key=if key∈keys then none else m.get? key := by
  induction keys generalizing m with
  | nil => simp only [List.foldl_nil,List.not_mem_nil,if_false]
  | cons first keys ih =>
    simp only [List.foldl_cons,ih,get?_erase,List.mem_cons]
    by_cases hf : key=first
    · simp only [hf,true_or,if_true,ite_self]
    · simp only [hf,false_or,if_false]

/-- A uniform update acts pointwise under lookup. -/
@[simp]
theorem get?_mapValues {ω : Type} (m : OrderedMap κ ν) (f : κ → ν → ω) (key : κ) :
    (m.mapValues f).get? key=(m.get? key).map (f key) := by
  obtain ⟨entries,hn⟩ := m
  unfold get? mapValues
  dsimp only
  clear hn
  induction entries with
  | nil => rfl
  | cons entry entries ih =>
    obtain ⟨k,v⟩ := entry
    by_cases hk : key=k
    · subst hk
      simp
    · have hb : (key==k)=false := beq_false_of_ne hk
      simp only [List.map_cons,List.lookup_cons,hb,ih]

/-- Stored values are exactly the answers of lookups. -/
theorem mem_values_iff (m : OrderedMap κ ν) (value : ν) :
    value ∈ m.values ↔ ∃ key, m.get? key=some value := by
  unfold values
  constructor
  · intro h
    obtain ⟨⟨key,v⟩,he,rfl⟩ := List.mem_map.mp h
    exact ⟨key,(m.get?_eq_some_iff key v).mpr he⟩
  · rintro ⟨key,h⟩
    exact List.mem_map.mpr ⟨(key,value),(m.get?_eq_some_iff key value).mp h,rfl⟩

end OrderedMap

end AtemProxy.KeyedMaps
