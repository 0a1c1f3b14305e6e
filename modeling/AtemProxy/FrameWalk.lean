import Mathlib.Data.List.Basic

/-!
# Walking a concatenation of self-delimiting frames

A frame reader recognizes the frame at the front of an input and returns
its exact extent. The walk repeats it from the start until the first
position where no frame is recognized. Frames and the unread rest always
reassemble the input, and an offset is visited exactly when the input
before it is itself a concatenation of frames. Nothing here depends on
how one frame is laid out.
-/

namespace AtemProxy.FrameWalk

/-- Recognizer of self-delimiting frames, with the two laws that make
the extent of a frame independent of what follows it. -/
structure FrameReader (α φ : Type) where
  /-- Frame at the front of the input, if one is recognized there. -/
  head : List α → Option φ
  /-- Exact extent of a frame. -/
  extent : φ → List α
  /-- Every frame makes progress. -/
  extent_ne_nil : ∀ f, extent f≠[]
  /-- A frame is recognized before any continuation. -/
  head_extent : ∀ f rest, head (extent f++rest)=some f
  /-- A recognized frame is a literal front part of its input. -/
  head_split : ∀ {xs f}, head xs=some f → ∃ rest, xs=extent f++rest

namespace FrameReader

variable {α φ : Type} (R : FrameReader α φ)

/-- Bounded walk; the bound is never reached when it is the input length. -/
def walkWithin : ℕ → List α → List φ×List α
  | 0,xs => ([],xs)
  | fuel+1,xs =>
    match R.head xs with
    | some f =>
      let tail := walkWithin fuel (xs.drop (R.extent f).length)
      (f::tail.1,tail.2)
    | none => ([],xs)

/-- Frames read from the front of the input and the rest where it stopped. -/
def walk (xs : List α) : List φ×List α := R.walkWithin xs.length xs

/-- Frames read before the first unrecognized position. -/
def frames (xs : List α) : List φ := (R.walk xs).1

/-- Input left when no further frame is recognized. -/
def rest (xs : List α) : List α := (R.walk xs).2

/-- The input is a concatenation of frames with nothing left over. -/
def Accepts (xs : List α) : Prop := R.rest xs=[]

/-- A frame is not empty. -/
theorem extent_length_pos (f : φ) : 0<(R.extent f).length :=
  List.length_pos_iff.mpr (R.extent_ne_nil f)

/-- Nothing is read from nothing. -/
theorem head_nil : R.head []=none := by
  cases h : R.head [] with
  | none => rfl
  | some f =>
    obtain ⟨rest,hr⟩ := R.head_split h
    exact absurd (List.append_eq_nil_iff.mp hr.symm).1 (R.extent_ne_nil f)

/-- Any bound at least the input length gives the same walk. -/
theorem walkWithin_of_le {n m : ℕ} {xs : List α} (hn : xs.length≤n) (hm : xs.length ≤ m) :
    R.walkWithin n xs=R.walkWithin m xs := by
  induction n generalizing m xs with
  | zero =>
    have hx : xs=[] := List.length_eq_zero_iff.mp (by omega)
    subst hx
    cases m with
    | zero => rfl
    | succ m => simp only [walkWithin,R.head_nil]
  | succ n ih =>
    cases m with
    | zero =>
      have hx : xs=[] := List.length_eq_zero_iff.mp (by omega)
      subst hx
      simp only [walkWithin,R.head_nil]
    | succ m =>
      cases hf : R.head xs with
      | none => simp only [walkWithin,hf]
      | some f =>
        have hp := R.extent_length_pos f
        have hd : (xs.drop (R.extent f).length).length=xs.length-(R.extent f).length :=
          List.length_drop
        have he : R.walkWithin n (xs.drop (R.extent f).length)=
            R.walkWithin m (xs.drop (R.extent f).length) := ih (by omega) (by omega)
        simp only [walkWithin,hf,he]

/-- A walk that recognizes nothing stops at once. -/
theorem walk_of_head_none {xs : List α} (h : R.head xs=none) : R.walk xs=([],xs) := by
  cases xs with
  | nil => rfl
  | cons x xs => simp only [walk,List.length_cons,walkWithin,h]

/-- A walk through a literal frame reads it and continues after it. -/
theorem walk_extent_append (f : φ) (xs : List α) :
    R.walk (R.extent f++xs)=(f::(R.walk xs).1,(R.walk xs).2) := by
  have hp := R.extent_length_pos f
  obtain ⟨n,hn⟩ : ∃ n, (R.extent f++xs).length=n+1 := ⟨(R.extent f++xs).length-1,by
    rw [List.length_append]; omega⟩
  have he : R.walkWithin n xs=R.walkWithin xs.length xs := R.walkWithin_of_le
    (by rw [List.length_append] at hn; omega) (Nat.le_refl _)
  unfold walk
  rw [hn]
  simp only [walkWithin,R.head_extent,List.drop_left,he]

/-- Structural view of an input: either no frame is recognized or the input
is one frame followed by a shorter input. -/
theorem walk_cases {motive : List α → Prop} (stop : ∀ xs, R.head xs=none → motive xs)
    (step : ∀ f xs, motive xs → motive (R.extent f++xs)) (xs : List α) : motive xs := by
  induction hn : xs.length using Nat.strongRecOn generalizing xs with
  | ind n ih =>
    cases hf : R.head xs with
    | none => exact stop xs hf
    | some f =>
      obtain ⟨tail,rfl⟩ := R.head_split hf
      have hp := R.extent_length_pos f
      rw [List.length_append] at hn
      exact step f tail (ih tail.length (by omega) tail rfl)

/-- The frame at the front is read first. -/
@[simp]
theorem frames_extent_append (f : φ) (xs : List α) :
    R.frames (R.extent f++xs)=f::R.frames xs := by
  unfold frames
  rw [walk_extent_append]

/-- What follows a frame decides about the rest. -/
@[simp]
theorem rest_extent_append (f : φ) (xs : List α) : R.rest (R.extent f++xs)=R.rest xs := by
  unfold rest
  rw [walk_extent_append]

/-- Without a frame at the front there are no frames. -/
theorem frames_of_head_none {xs : List α} (h : R.head xs=none) : R.frames xs=[] := by
  unfold frames
  rw [R.walk_of_head_none h]

/-- Without a frame at the front everything is left over. -/
theorem rest_of_head_none {xs : List α} (h : R.head xs=none) : R.rest xs=xs := by
  unfold rest
  rw [R.walk_of_head_none h]

/-- There are no frames in nothing. -/
@[simp]
theorem frames_nil : R.frames []=[] := R.frames_of_head_none R.head_nil

/-- Nothing is left over of nothing. -/
@[simp]
theorem rest_nil : R.rest []=[] := R.rest_of_head_none R.head_nil

/-- Frames and rest reassemble the original input. -/
theorem extents_append_rest (xs : List α) :
    ((R.frames xs).map R.extent).flatten++R.rest xs=xs := by
  induction xs using R.walk_cases with
  | stop xs h => rw [R.frames_of_head_none h,R.rest_of_head_none h]; rfl
  | step f xs ih =>
    rw [frames_extent_append,rest_extent_append,List.map_cons,List.flatten_cons,
      List.append_assoc,ih]

/-- A walk through whole frames reads all of them, then walks what follows. -/
theorem walk_extents_append (fs : List φ) (xs : List α) :
    R.frames ((fs.map R.extent).flatten++xs)=fs++R.frames xs ∧
      R.rest ((fs.map R.extent).flatten++xs)=R.rest xs := by
  induction fs with
  | nil => exact ⟨rfl,rfl⟩
  | cons f fs ih =>
    simp only [List.map_cons,List.flatten_cons,List.append_assoc,frames_extent_append,
      rest_extent_append,List.cons_append]
    exact ⟨by rw [ih.1],ih.2⟩

/-- Accepted inputs are exactly the concatenations of frames. -/
theorem accepts_iff (xs : List α) : R.Accepts xs ↔ ∃ fs : List φ, xs=(fs.map R.extent).flatten := by
  constructor
  · intro h
    have he := R.extents_append_rest xs
    unfold Accepts at h
    rw [h,List.append_nil] at he
    exact ⟨R.frames xs,he.symm⟩
  · rintro ⟨fs,rfl⟩
    have h := (R.walk_extents_append fs []).2
    rw [List.append_nil,rest_nil] at h
    exact h

/-- No frame is recognized where a walk stops. -/
theorem head_rest (xs : List α) : R.head (R.rest xs)=none := by
  induction xs using R.walk_cases with
  | stop xs h => rw [R.rest_of_head_none h,h]
  | step f xs ih => rw [rest_extent_append,ih]

/-- A walk stops behind whole frames exactly where no frame is recognized. -/
theorem rest_extents_append {fs : List φ} {xs : List α} (h : R.head xs=none) :
    R.rest ((fs.map R.extent).flatten++xs)=xs := by
  rw [(R.walk_extents_append fs xs).2,R.rest_of_head_none h]

/-- One frame is accepted and is its own walk. -/
theorem frames_extent (f : φ) : R.frames (R.extent f)=[f] := by
  have h := R.frames_extent_append f []
  rwa [List.append_nil,frames_nil] at h

/-- One frame is accepted. -/
theorem accepts_extent (f : φ) : R.Accepts (R.extent f) :=
  (R.accepts_iff _).mpr ⟨[f],by simp⟩

/-- After an accepted part the walk reads what follows from its start. -/
theorem walk_append_of_accepts {xs : List α} (h : R.Accepts xs) (ys : List α) :
    R.frames (xs++ys)=R.frames xs++R.frames ys ∧ R.rest (xs++ys)=R.rest ys := by
  obtain ⟨fs,rfl⟩ := (R.accepts_iff xs).mp h
  have hf := (R.walk_extents_append fs []).1
  rw [List.append_nil,frames_nil,List.append_nil] at hf
  rw [hf]
  exact R.walk_extents_append fs ys

/-- Bytes behind an input never take away frames read before. -/
theorem frames_prefix_append (xs ys : List α) : R.frames xs<+:R.frames (xs++ys) := by
  induction xs using R.walk_cases with
  | stop xs h =>
    rw [R.frames_of_head_none h]
    exact List.nil_prefix
  | step f xs ih =>
    rw [List.append_assoc,frames_extent_append,frames_extent_append]
    exact List.prefix_cons_inj f |>.mpr ih

/-- The walk of the input meets this frame at this offset. -/
def MeetsAt (xs : List α) (offset : ℕ) (f : φ) : Prop :=
  ∃ before after, R.frames xs=before++f::after ∧ offset=((before.map R.extent).flatten).length

/-- A walk meets a frame after a given part exactly when that part is
itself a concatenation of frames and the frame is recognized behind it. -/
theorem meetsAt_append_iff (xs ys : List α) (f : φ) :
    R.MeetsAt (xs++ys) xs.length f ↔ R.Accepts xs ∧ R.head ys=some f := by
  constructor
  · rintro ⟨before,after,hf,hk⟩
    have he := R.extents_append_rest (xs++ys)
    rw [hf,List.map_append,List.map_cons,List.flatten_append,List.flatten_cons,
      List.append_assoc,List.append_assoc] at he
    obtain ⟨hx,hy⟩ := List.append_inj he hk.symm
    refine ⟨(R.accepts_iff xs).mpr ⟨before,hx.symm⟩,?_⟩
    rw [←hy]
    exact R.head_extent f _
  · rintro ⟨hx,hy⟩
    obtain ⟨tail,rfl⟩ := R.head_split hy
    refine ⟨R.frames xs,R.frames tail,?_,?_⟩
    · rw [(R.walk_append_of_accepts hx _).1,frames_extent_append]
    · have he := R.extents_append_rest xs
      unfold Accepts at hx
      rw [hx,List.append_nil] at he
      rw [he]

end FrameReader

end AtemProxy.FrameWalk
