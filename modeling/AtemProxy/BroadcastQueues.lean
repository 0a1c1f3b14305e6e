import Mathlib.Data.List.Basic

/-!
# A bounded broadcast queue seen by one slow receiver

Sending never blocks: when the capacity is used up, the oldest unread item
is overwritten and the receiver is told that it lagged before it continues
with the oldest item retained. Items that are received arrive in the order
they were sent.
-/

namespace AtemProxy.BroadcastQueues

/-- Unread items of the receiver and whether some were overwritten. -/
structure Broadcast (α : Type) where
  /-- Unread items, oldest first. -/
  items : List α
  /-- Items were overwritten since the receiver last heard of it. -/
  missed : Bool

/-- What a receive returns. -/
inductive Received (α : Type) where
  /-- The oldest unread item. -/
  | item (x : α)
  /-- Items were overwritten. -/
  | lagged

namespace Broadcast

variable {α : Type}

/-- Queue without items. -/
def empty : Broadcast α := ⟨[],false⟩

/-- Append an item, overwriting the oldest one beyond the capacity. -/
def send (capacity : ℕ) (q : Broadcast α) (x : α) : Broadcast α :=
  if q.items.length < capacity then ⟨q.items++[x],q.missed⟩
  else ⟨(q.items++[x]).tail,true⟩

/-- Take the oldest item, or the notice about overwritten ones. -/
def recv (q : Broadcast α) : Option (Received α×Broadcast α) :=
  if q.missed=true then some (.lagged,⟨q.items,false⟩)
  else match q.items with
    | [] => none
    | x::items => some (.item x,⟨items,false⟩)

/-- Nothing is unread and nothing was overwritten. -/
def Drained (q : Broadcast α) : Prop := q.items=[] ∧ q.missed=false

/-- Sending keeps all items, or drops the oldest and records it. -/
theorem send_cases (capacity : ℕ) (q : Broadcast α) (x : α) :
    (q.send capacity x=⟨q.items++[x],q.missed⟩) ∨
      ∃ oldest items, q.items++[x]=oldest::items ∧ q.send capacity x=⟨items,true⟩ := by
  simp only [send]
  split
  · exact Or.inl rfl
  · right
    cases hq : q.items with
    | nil => exact ⟨x,[],rfl,rfl⟩
    | cons oldest items => exact ⟨oldest,items++[x],rfl,rfl⟩

/-- Sending adds its own item to the unread ones, and takes none of the others
away unless the queue is full and the oldest item is one of them. -/
theorem count_send [DecidableEq α] {capacity : ℕ} (hpos : 0 < capacity) {q : Broadcast α} {y : α}
    (h : ¬(capacity≤q.items.length ∧ q.items.head?=some y)) (x : α) :
    (q.send capacity x).items.count y=q.items.count y+if x=y then 1 else 0 := by
  have hone : [x].count y=if x=y then 1 else 0 := by
    by_cases he : x=y
    · rw [if_pos he,he,List.count_singleton_self]
    · rw [if_neg he,List.count_eq_zero]
      exact fun hm => he (List.mem_singleton.mp hm).symm
  simp only [send]
  split
  · rw [List.count_append,hone]
  · rename_i hfull
    cases hq : q.items with
    | nil =>
      rw [hq,List.length_nil] at hfull
      exact absurd hpos hfull
    | cons oldest items =>
      have hother : oldest≠y := by
        intro he
        exact h ⟨by omega,by rw [hq,he]; rfl⟩
      simp only [List.cons_append,List.tail_cons]
      rw [List.count_append,hone,List.count_cons_of_ne hother]

/-- A queue with room takes several items in order. -/
theorem foldl_send {capacity : ℕ} (xs : List α) {q : Broadcast α}
    (h : q.items.length+xs.length≤capacity) :
    xs.foldl (send capacity) q=⟨q.items++xs,q.missed⟩ := by
  induction xs generalizing q with
  | nil => rw [List.foldl_nil,List.append_nil]
  | cons x xs ih =>
    rw [List.length_cons] at h
    have hroom : q.items.length < capacity := by omega
    have hsend : q.send capacity x=⟨q.items++[x],q.missed⟩ := if_pos hroom
    rw [List.foldl_cons,hsend,ih]
    · rw [List.append_assoc,List.singleton_append]
    · simp only [List.length_append,List.length_singleton]
      omega

/-- A receive either clears the notice or takes the oldest item. -/
theorem recv_cases {q next : Broadcast α} {received : Received α}
    (h : q.recv=some (received,next)) :
    (received=.lagged ∧ q.missed=true ∧ next=⟨q.items,false⟩) ∨
      ∃ x items, received=.item x ∧ q.missed=false ∧ q.items=x::items ∧ next=⟨items,false⟩ := by
  simp only [recv] at h
  split at h
  · rename_i hmissed
    cases h
    exact Or.inl ⟨rfl,hmissed,rfl⟩
  · rename_i hmissed
    split at h
    · cases h
    · rename_i x items hitems
      cases h
      exact Or.inr ⟨x,items,rfl,eq_false_of_ne_true hmissed,hitems,rfl⟩

end Broadcast

end AtemProxy.BroadcastQueues
