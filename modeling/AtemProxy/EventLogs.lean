import Mathlib.Data.List.Basic

/-!
# Events that are still open in a growing log

An event stays open until a later event closes it. Logs grow at their
end, so openness and properties of each event against the log before it
are followed one appended event at a time.
-/

namespace AtemProxy.EventLogs

variable {E : Type}

/-- Splits of an extended log: at the new event, or inside the old log. -/
theorem append_singleton_eq_append_cons {log before after : List E} {e f : E}
    (h : log++[e]=before++f::after) :
    (log=before ∧ e=f ∧ after=[]) ∨ ∃ rest, after=rest++[e] ∧ log=before++f::rest := by
  rcases List.eq_nil_or_concat after with rfl | ⟨rest,last,rfl⟩
  · obtain ⟨hl,he⟩ := List.append_inj' h rfl
    exact Or.inl ⟨hl,(List.cons.inj he).1,rfl⟩
  · right
    rw [List.concat_eq_append,←List.cons_append,←List.append_assoc] at h
    obtain ⟨hl,he⟩ := List.append_inj' h rfl
    exact ⟨rest,by rw [List.concat_eq_append,(List.cons.inj he).1],hl⟩

/-- The event occurs in the log and no later event closes it. -/
def OpenIn (closes : E → E → Prop) (log : List E) (f : E) : Prop :=
  ∃ before after, log=before++f::after ∧ ∀ e ∈ after, ¬closes f e

/-- Nothing is open in an empty log. -/
theorem not_openIn_nil (closes : E → E → Prop) (f : E) : ¬OpenIn closes [] f := by
  rintro ⟨before,after,h,_⟩
  exact absurd h.symm (List.append_ne_nil_of_right_ne_nil _ (List.cons_ne_nil _ _))

/-- After one more event an event is open when it is the new one, or when
it was open and the new one does not close it. -/
theorem openIn_append_singleton {closes : E → E → Prop} {log : List E} {e f : E}
    (h : OpenIn closes (log++[e]) f) : f=e ∨ (OpenIn closes log f ∧ ¬closes f e) := by
  obtain ⟨before,after,hl,ha⟩ := h
  rcases append_singleton_eq_append_cons hl with ⟨_,he,_⟩ | ⟨rest,hr,hlog⟩
  · exact Or.inl he.symm
  · subst hr
    refine Or.inr ⟨⟨before,rest,hlog,?_⟩,?_⟩
    · intro d hd
      exact ha d (List.mem_append_left _ hd)
    · exact ha e (List.mem_append_right _ (List.mem_singleton_self e))

/-- An open event occurs in the log. -/
theorem OpenIn.mem {closes : E → E → Prop} {log : List E} {f : E} (h : OpenIn closes log f) :
    f ∈ log := by
  obtain ⟨before,after,rfl,_⟩ := h
  exact List.mem_append_right _ List.mem_cons_self

/-- The newest event is open. -/
theorem openIn_newest (closes : E → E → Prop) (log : List E) (e : E) :
    OpenIn closes (log++[e]) e :=
  ⟨log,[],rfl,fun _ hd => absurd hd (List.not_mem_nil)⟩

/-- An open event stays open when the next event does not close it. -/
theorem OpenIn.append {closes : E → E → Prop} {log : List E} {e f : E}
    (h : OpenIn closes log f) (hc : ¬closes f e) : OpenIn closes (log++[e]) f := by
  obtain ⟨before,after,rfl,ha⟩ := h
  refine ⟨before,after++[e],by simp only [List.append_assoc,List.cons_append],?_⟩
  intro d hd
  rcases List.mem_append.mp hd with hd | hd
  · exact ha d hd
  · rw [List.mem_singleton] at hd
    exact hd ▸ hc

/-- Every event satisfies the property against the log before it. -/
def EachAt (P : List E → E → Prop) (log : List E) : Prop :=
  ∀ before e after, log=before++e::after → P before e

/-- An empty log has every such property. -/
theorem eachAt_nil (P : List E → E → Prop) : EachAt P [] := by
  intro before e after h
  exact absurd h.symm (List.append_ne_nil_of_right_ne_nil _ (List.cons_ne_nil _ _))

/-- One more entry is judged by those before it. -/
theorem EachAt.append {P : List E → E → Prop} {log : List E} {e : E} (h : EachAt P log)
    (he : P log e) : EachAt P (log++[e]) := by
  intro before f after hl
  rcases append_singleton_eq_append_cons hl with ⟨hb,hf,_⟩ | ⟨rest,_,hl⟩
  · exact hf ▸ hb ▸ he
  · exact h before f rest hl

end AtemProxy.EventLogs
