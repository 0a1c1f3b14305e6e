import Mathlib.Data.List.Basic

/-!
# Runs of a machine that answers its inputs

A machine takes an input in a state, moves to a state and answers with a
list of outputs. A run collects the answers in order. When every input of
a coarse machine is a short run of a fine one, so is every run.
-/

namespace AtemProxy.AnswerRuns

variable {S A B O : Type}

/-- State after the inputs and everything answered on the way. -/
def answers (answer : S → A → S×List O) : S → List A → S×List O
  | s,[] => (s,[])
  | s,a::inputs =>
    let first := answer s a
    let others := answers answer first.1 inputs
    (others.1,first.2++others.2)

/-- Answers of a concatenation are concatenated. -/
theorem answers_append (answer : S → A → S×List O) (s : S) (first second : List A) :
    answers answer s (first++second)=
      ((answers answer (answers answer s first).1 second).1,
        (answers answer s first).2++(answers answer (answers answer s first).1 second).2) := by
  induction first generalizing s with
  | nil => rfl
  | cons a first ih =>
    rw [List.cons_append]
    simp only [answers,ih,List.append_assoc]

/-- A coarse machine whose inputs are runs of a fine one has its runs. -/
theorem answers_flatMap {fine : S → A → S×List O} {coarse : S → B → S×List O}
    {expand : B → List A} (h : ∀ s b,answers fine s (expand b)=coarse s b) (s : S)
    (inputs : List B) :
    answers fine s (inputs.flatMap expand)=answers coarse s inputs := by
  induction inputs generalizing s with
  | nil => rfl
  | cons b inputs ih =>
    rw [List.flatMap_cons,answers_append,h]
    simp only [answers,ih]

end AtemProxy.AnswerRuns
