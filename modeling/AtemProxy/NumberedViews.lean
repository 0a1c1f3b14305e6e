import AtemProxy.LastWrites

/-!
# The order in which a follower sees numbered writes

The writes of a store are numbered by their place in its history. A follower
joins with a copy of the store, which holds the last write of every key, and
then receives the writes that were still on their way at that moment and the
later ones. What it sees of one key is in order, except that a write that was
on its way may arrive behind the newer one of the copy.
-/

namespace AtemProxy.NumberedViews

open KeyedMaps LastWrites

variable {κ ν : Type}

/-- Number of the last write of a key. -/
def lastAt [DecidableEq κ] (key : κ) : List (κ×ν) → Option ℕ
  | [] => none
  | write::writes =>
    match lastAt key writes with
    | some i => some (i+1)
    | none => if write.1=key then some 0 else none

/-- A key without last write has no number. -/
theorem lastAt_eq_none [DecidableEq κ] {key : κ} {history : List (κ×ν)}
    (h : lastFor key history=none) : lastAt key history=none := by
  induction history with
  | nil => rfl
  | cons write writes ih =>
    rw [lastFor,Option.or_eq_none_iff] at h
    rw [lastAt,ih h.1]
    dsimp only
    rw [if_neg]
    intro hkey
    rw [if_pos hkey] at h
    cases h.2

/-- The last write of a key stands where its number says. -/
theorem getElem?_lastAt [DecidableEq κ] {key : κ} {value : ν} {history : List (κ×ν)}
    (h : lastFor key history=some value) :
    ∃ i,lastAt key history=some i ∧ history[i]?=some (key,value) := by
  induction history with
  | nil => cases h
  | cons write writes ih =>
    rw [lastFor] at h
    rw [lastAt]
    cases hlast : lastFor key writes with
    | some later =>
      rw [hlast,Option.some_or] at h
      obtain ⟨i,hi,hget⟩ := ih (hlast.trans h)
      rw [hi]
      exact ⟨i+1,rfl,hget⟩
    | none =>
      rw [hlast,Option.none_or] at h
      rw [lastAt_eq_none hlast]
      dsimp only
      split at h
      · rename_i hkey
        rw [if_pos hkey]
        cases h
        exact ⟨0,rfl,by rw [List.getElem?_cons_zero,←hkey]⟩
      · cases h

/-- The writes are those of the history with these numbers, in this order. -/
def Numbers (history : List (κ×ν)) (numbers : List ℕ) (writes : List (κ×ν)) : Prop :=
  numbers.map (fun i => history[i]?)=writes.map some

namespace Numbers

variable {history : List (κ×ν)} {numbers numbers' : List ℕ} {writes writes' : List (κ×ν)}

/-- No numbers, no writes. -/
theorem nil : Numbers history [] [] := rfl

/-- Numbered writes follow each other. -/
theorem append (h : Numbers history numbers writes) (h' : Numbers history numbers' writes') :
    Numbers history (numbers++numbers') (writes++writes') := by
  unfold Numbers
  rw [List.map_append,List.map_append,h,h']

/-- Every write has a number. -/
theorem length_eq (h : Numbers history numbers writes) : numbers.length=writes.length := by
  have hlength := congrArg List.length h
  rwa [List.length_map,List.length_map] at hlength

/-- Numbers of writes are numbers of the history. -/
theorem bound (h : Numbers history numbers writes) : ∀ i∈numbers,i<history.length := by
  intro i hi
  have hmem : history[i]?∈writes.map some := h ▸ List.mem_map_of_mem hi
  obtain ⟨write,_,hget⟩ := List.mem_map.mp hmem
  by_contra hout
  rw [List.getElem?_eq_none (Nat.le_of_not_lt hout)] at hget
  cases hget

/-- Later writes do not change earlier numbers. -/
theorem extend (h : Numbers history numbers writes) (more : List (κ×ν)) :
    Numbers (history++more) numbers writes := by
  have hsame : numbers.map (fun i => (history++more)[i]?)=numbers.map (fun i => history[i]?) :=
    List.map_congr_left (fun i hi => List.getElem?_append_left (h.bound i hi))
  exact hsame.trans h

/-- The first writes have the first numbers. -/
theorem take (h : Numbers history numbers (writes++writes')) :
    Numbers history (numbers.take writes.length) writes := by
  unfold Numbers
  rw [List.map_take,h,List.map_append,List.take_left' (List.length_map ..)]

/-- The other writes have the other numbers. -/
theorem drop (h : Numbers history numbers (writes++writes')) :
    Numbers history (numbers.drop writes.length) writes' := by
  unfold Numbers
  rw [List.map_drop,h,List.map_append,List.drop_left' (List.length_map ..)]

/-- New writes have the next numbers. -/
theorem fresh (history more : List (κ×ν)) :
    Numbers (history++more) (List.range' history.length more.length) more := by
  unfold Numbers
  refine List.ext_getElem (by simp only [List.length_map,List.length_range']) ?_
  intro i hi _
  rw [List.length_map,List.length_range'] at hi
  simp only [List.getElem_map,List.getElem_range',Nat.one_mul]
  rw [List.getElem?_append_right (Nat.le_add_right _ _),Nat.add_sub_cancel_left,
    List.getElem?_eq_getElem hi]

end Numbers

/-- Key of a numbered write. -/
def keyAt (history : List (κ×ν)) (i : ℕ) : Option κ := history[i]?.map Prod.fst

/-- Later writes do not change the key of a number. -/
theorem keyAt_extend {history : List (κ×ν)} {i : ℕ} (h : i<history.length) (more : List (κ×ν)) :
    keyAt (history++more) i=keyAt history i := by
  unfold keyAt
  rw [List.getElem?_append_left h]

/-- Numbers of what a follower was given. -/
structure View where
  /-- Writes of the copy it joined with. -/
  dumped : List ℕ
  /-- Writes it received since. -/
  live : List ℕ
  /-- Writes that were on their way when it joined. -/
  underWay : List ℕ

/-- Numbers of the stored writes of a store. -/
def storedNumbers [DecidableEq κ] (history : List (κ×ν)) (entries : List (κ×ν)) : List ℕ :=
  entries.filterMap (fun entry => lastAt entry.1 history)

/-- A store that holds last writes is a copy with their numbers. -/
theorem numbers_stored [DecidableEq κ] {history entries : List (κ×ν)}
    (h : ∀ entry∈entries,lastFor entry.1 history=some entry.2) :
    Numbers history (storedNumbers history entries) entries := by
  induction entries with
  | nil => exact Numbers.nil
  | cons entry entries ih =>
    obtain ⟨i,hi,hget⟩ := getElem?_lastAt (h entry List.mem_cons_self)
    have hrest := ih (fun other hm => h other (List.mem_cons_of_mem _ hm))
    unfold Numbers storedNumbers at hrest ⊢
    rw [List.filterMap_cons,hi,List.map_cons,List.map_cons,hget,hrest]

/-- The view of a follower and the writes that are still due to it. -/
structure Trails (history : List (κ×ν)) (due : List ℕ) (v : View) : Prop where
  /-- Writes arrive in order. -/
  ordered : (v.live++due).Pairwise (· < ·)
  /-- The copy has one write for each key. -/
  distinct : v.dumped.Pairwise (fun i j => keyAt history i≠keyAt history j)
  /-- Numbers that exist. -/
  bound : ∀ i∈v.dumped,i<history.length
  /-- What was not on its way when the follower joined is newer than its copy. -/
  newer : ∀ j∈v.live++due,j∈v.underWay ∨ ∀ i∈v.dumped,i<j

/-- What a follower was given of one key is in order; only a write that was on its
way when it joined may come behind a newer one, and that one was in the copy. -/
def InOrder (history : List (κ×ν)) (v : View) : Prop :=
  (v.dumped++v.live).Pairwise (fun i j => keyAt history i=keyAt history j →
    i≤j ∨ i∈v.dumped ∧ j∈v.underWay)

namespace Trails

variable {history : List (κ×ν)} {due : List ℕ} {v : View}

/-- A view that trails the history is in order. -/
theorem inOrder (h : Trails history due v) : InOrder history v := by
  unfold InOrder
  rw [List.pairwise_append]
  refine ⟨?_,?_,?_⟩
  · exact h.distinct.imp (fun hne he => absurd he hne)
  · exact (List.pairwise_append.mp h.ordered).1.imp (fun hlt _ => Or.inl (Nat.le_of_lt hlt))
  · intro i hi j hj _
    rcases h.newer j (List.mem_append_left _ hj) with hway | hnew
    · exact Or.inr ⟨hi,hway⟩
    · exact Or.inl (Nat.le_of_lt (hnew i hi))

/-- Some due writes are received and new ones are written. -/
theorem advance (h : Trails history due v) (hdue : ∀ j∈due,j<history.length)
    (hlive : ∀ j∈v.live,j<history.length) (count : ℕ) (more : List (κ×ν)) :
    Trails (history++more) (due.drop count++List.range' history.length more.length)
      {v with live := v.live++due.take count} := by
  have hsplit : v.live++due.take count++
      (due.drop count++List.range' history.length more.length)=
      v.live++due++List.range' history.length more.length := by
    rw [List.append_assoc,←List.append_assoc (due.take count),List.take_append_drop,
      List.append_assoc]
  have hall : ∀ j∈v.live++due,j<history.length := by
    intro j hj
    rcases List.mem_append.mp hj with hj | hj
    · exact hlive j hj
    · exact hdue j hj
  refine ⟨?_,?_,?_,?_⟩
  · dsimp only
    rw [hsplit,List.pairwise_append]
    refine ⟨h.ordered,List.pairwise_lt_range',fun i hi j hj => ?_⟩
    exact Nat.lt_of_lt_of_le (hall i hi) (List.mem_range'_1.mp hj).1
  · refine h.distinct.imp_of_mem (fun hi hj hne => ?_)
    rw [keyAt_extend (h.bound _ hi),keyAt_extend (h.bound _ hj)]
    exact hne
  · intro i hi
    rw [List.length_append]
    exact Nat.lt_add_right _ (h.bound i hi)
  · dsimp only
    rw [hsplit]
    intro j hj
    rcases List.mem_append.mp hj with hj | hj
    · exact h.newer j hj
    · exact Or.inr (fun i hi => Nat.lt_of_lt_of_le (h.bound i hi) (List.mem_range'_1.mp hj).1)

end Trails

/-- A follower that joins is given the last write of every stored key. -/
theorem trails_join [DecidableEq κ] {history entries : List (κ×ν)} {due : List ℕ}
    (hdue : due.Pairwise (· < ·)) (hnodup : (entries.map Prod.fst).Nodup)
    (h : ∀ entry∈entries,lastFor entry.1 history=some entry.2) :
    Trails history due ⟨storedNumbers history entries,[],due⟩ where
  ordered := hdue
  distinct := by
    have hkeys : (storedNumbers history entries).map (keyAt history)=
        (entries.map Prod.fst).map some := by
      have hnumbers := congrArg (List.map (Option.map Prod.fst)) (numbers_stored h)
      rw [List.map_map,List.map_map] at hnumbers
      rw [List.map_map]
      exact hnumbers
    have hpairs := hnodup.map (fun _ _ he => Option.some.inj he)
    rw [←hkeys] at hpairs
    exact List.Pairwise.of_map _ (fun _ _ hne => hne) hpairs
  bound := (numbers_stored h).bound
  newer := fun j hj => Or.inl hj

end AtemProxy.NumberedViews
