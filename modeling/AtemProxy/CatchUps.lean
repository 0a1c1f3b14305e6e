import AtemProxy.LastWrites

/-!
# Followers of a keyed store that receive writes late

A store applies keyed writes at once; its followers receive the same writes
through a queue, and may be refreshed from the store in between. A follower
catches up on a key when working off the whole queue leaves it with the
value of the store. The rules below say how that survives every change of
the store and of the queue.
-/

namespace AtemProxy.CatchUps

open LastWrites

variable {κ ν : Type} [DecidableEq κ]

/-- Item of the queue towards the followers. -/
inductive Pending (κ ν : Type) where
  /-- Writes to be applied in order. -/
  | writes (writes : List (κ×ν))
  /-- The follower will hold whatever the store holds. -/
  | refresh

/-- Value of a key after one item, when the store holds the given value. -/
def Pending.apply (key : κ) (value : ν) (last : Option ν) : Pending κ ν → Option ν
  | .writes ws => (lastFor key ws).or last
  | .refresh => some value

/-- Value of a key after the whole queue. -/
def outlook (key : κ) (value : ν) (queue : List (Pending κ ν)) (last : Option ν) : Option ν :=
  queue.foldl (Pending.apply key value) last

/-- The queue leads the follower to the value of the store. -/
def CatchesUp (key : κ) (value : ν) (queue : List (Pending κ ν)) (last : Option ν) : Prop :=
  outlook key value queue last=some value

/-- With nothing pending the last value has to be this one. -/
@[simp]
theorem catchesUp_nil {key : κ} {value : ν} {last : Option ν} :
    CatchesUp key value [] last ↔ last=some value := Iff.rfl

/-- Pending writes decide about the last value, if they contain the key. -/
@[simp]
theorem catchesUp_writes {key : κ} {value : ν} {ws : List (κ×ν)} {queue : List (Pending κ ν)}
    {last : Option ν} :
    CatchesUp key value (.writes ws::queue) last ↔
      CatchesUp key value queue ((lastFor key ws).or last) := Iff.rfl

/-- A refresh brings the value itself. -/
@[simp]
theorem catchesUp_refresh {key : κ} {value : ν} {queue : List (Pending κ ν)} {last : Option ν} :
    CatchesUp key value (.refresh::queue) last ↔ CatchesUp key value queue (some value) := Iff.rfl

/-- What comes first only matters by the value it leaves. -/
theorem catchesUp_append {key : κ} {value : ν} {first second : List (Pending κ ν)}
    {last : Option ν} :
    CatchesUp key value (first++second) last ↔
      CatchesUp key value second (outlook key value first last) := by
  simp only [CatchesUp,outlook,List.foldl_append]

/-- A queue that leads anyone to the value of the store keeps those there
who already hold it. -/
theorem CatchesUp.keeps {key : κ} {value : ν} {queue : List (Pending κ ν)} {last : Option ν}
    (h : CatchesUp key value queue last) : CatchesUp key value queue (some value) := by
  induction queue generalizing last with
  | nil => exact rfl
  | cons item queue ih =>
    cases item with
    | refresh => exact h
    | writes ws =>
      rw [catchesUp_writes] at h ⊢
      cases hw : lastFor key ws with
      | none => exact ih h
      | some written =>
        rw [hw] at h
        exact h

/-- Later parts of such a queue keep the value as well. -/
theorem CatchesUp.keeps_later {key : κ} {value : ν} {first second : List (Pending κ ν)}
    {last : Option ν} (h : CatchesUp key value (first++second) last) :
    CatchesUp key value second (some value) := (catchesUp_append.mp h).keeps

/-- Whatever is refreshed may be skipped. -/
theorem CatchesUp.skip {key : κ} {value : ν} {first second third : List (Pending κ ν)}
    {last : Option ν} (h : CatchesUp key value (first++second++third) last) :
    CatchesUp key value (first++.refresh::third) last :=
  catchesUp_append.mpr (catchesUp_refresh.mpr h.keeps_later)

/-- A refresh may be replaced by a copy of the stored values. -/
theorem CatchesUp.copy {key : κ} {value : ν} {ws : List (κ×ν)} {queue : List (Pending κ ν)}
    {last : Option ν} (hcopy : lastFor key ws=some value)
    (h : CatchesUp key value (.refresh::queue) last) :
    CatchesUp key value (.writes ws::queue) last := by
  rw [catchesUp_writes,hcopy]
  exact h

/-- The store and the queue take the same writes. -/
theorem CatchesUp.write {key : κ} {value : ν} {stored : Option ν} {ws : List (κ×ν)}
    {queue : List (Pending κ ν)} {last : Option ν}
    (hstored : (lastFor key ws).or stored=some value)
    (h : stored=some value → CatchesUp key value queue last) :
    CatchesUp key value (queue++[.writes ws]) last := by
  rw [catchesUp_append,catchesUp_writes,catchesUp_nil]
  cases hw : lastFor key ws with
  | some written =>
    rw [hw] at hstored
    exact hstored
  | none =>
    rw [hw,Option.none_or] at hstored
    exact h hstored

end AtemProxy.CatchUps
