import Orchestrator.Kit.Proc

/-! # The record of an execution

An execution with its answered calls, in the order in which they were made. A property of
an entry that speaks about what came before it is a guard: it has to be shown only when the
entry is new, since what is recorded stays recorded.
-/

namespace Kit

variable {ε Call : Type} {Answer : Call → Type} {α σ E : Type}

/-- A call with its answer. -/
structure Answered (ε : Type) {Call : Type} (Answer : Call → Type) where
  name : Call
  answer : Except ε (Answer name)

/-- Calls are served, and recorded. -/
def recording (serves : Serves σ ε Call Answer) :
    Serves (σ × List (Answered ε Answer)) ε Call Answer :=
  fun w name answer w' => serves w.1 name answer w'.1 ∧ w'.2 = w.2 ++ [⟨name, answer⟩]

/-- The record is left out of a recorded execution, whatever it is. -/
theorem exec_unrecorded {serves : Serves σ ε Call Answer} {procedure : Proc ε Call Answer α}
    {w w' : σ × List (Answered ε Answer)} {ending : Ending ε α}
    (h : Exec (recording serves) procedure w ending w') :
    Exec serves procedure w.1 ending w'.1 := by
  induction h with
  | ret => exact .ret
  | throw => exact .throw
  | crash => exact .crash
  | call hserves _ ih => exact .call hserves.1 ih

/-! ## Guards -/

/-- Every entry is allowed by the entries before it. -/
def Guarded (allowed : List E → E → Prop) (record : List E) : Prop :=
  ∀ before entry after, record = before ++ entry :: after → allowed before entry

section Guards

variable {allowed : List E → E → Prop} {record : List E} {entry : E}

theorem guarded_nil : Guarded allowed [] := by
  intro before entry after hsplit
  have hlength := congrArg List.length hsplit
  simp at hlength

theorem guarded_snoc (h : Guarded allowed record) (hnew : allowed record entry) :
    Guarded allowed (record ++ [entry]) := by
  intro before middle after hsplit
  rcases List.eq_nil_or_concat after with rfl | ⟨after, last, rfl⟩
  · -- The new entry itself.
    have hends := List.append_inj' hsplit rfl
    rcases List.cons.inj hends.2 with ⟨rfl, _⟩
    rw [← hends.1]
    exact hnew
  · have hassoc : record ++ [entry] = (before ++ middle :: after) ++ [last] := by
      rw [hsplit]
      simp
    exact h before middle after (List.append_inj' hassoc rfl).1

/-- The crash condition of a guard: besides it, `I` holds of the record. -/
def GuardedWith (allowed : List E → E → Prop) (I : List E → Prop) (w : σ × List E) : Prop :=
  Guarded allowed w.2 ∧ I w.2

variable {serves : Serves σ ε Call Answer} {allowed : List (Answered ε Answer) →
  Answered ε Answer → Prop} {I : List (Answered ε Answer) → Prop}

/-- A call whose answers are allowed, with what is known of the value it returns. -/
theorem keeps_guarded {name : Call} {Q : Answer name → σ × List (Answered ε Answer) → Prop}
    {w : σ × List (Answered ε Answer)} (h : GuardedWith allowed I w)
    (hlasts : ∀ entry, I (w.2 ++ [entry])) (hallowed : ∀ answer, allowed w.2 ⟨name, answer⟩)
    (hanswer : ∀ value w', serves w.1 name (.ok value) w' →
      Q value (w', w.2 ++ [⟨name, .ok value⟩])) :
    (Proc.perform name).Keeps (recording serves) (GuardedWith allowed I) Q w := by
  refine keeps_perform h ?_
  rintro answer ⟨w', record⟩ ⟨hserves, hrecord⟩
  obtain rfl : record = w.2 ++ [⟨name, answer⟩] := hrecord
  refine ⟨⟨guarded_snoc h.1 (hallowed answer), hlasts _⟩, ?_⟩
  rintro value rfl
  exact hanswer value w' hserves

/-- What lasts while the record grows is still there afterwards. -/
theorem keeps_lasting {C : σ × List (Answered ε Answer) → Prop}
    {Q : α → σ × List (Answered ε Answer) → Prop} {P : List (Answered ε Answer) → Prop}
    {procedure : Proc ε Call Answer α} {w : σ × List (Answered ε Answer)}
    (hlasts : ∀ record entry, P record → P (record ++ [entry])) (hP : P w.2)
    (h : procedure.Keeps (recording serves) C Q w) :
    procedure.Keeps (recording serves) C (fun value w' => Q value w' ∧ P w'.2) w := by
  have hinvariant : procedure.wp (recording serves)
      (fun _ (w' : σ × List (Answered ε Answer)) => P w'.2) w := by
    refine wp_invariant (fun w₁ : σ × List (Answered ε Answer) => P w₁.2) ?_ procedure hP
    rintro w₁ name answer w₂ ⟨_, hrecord⟩ hlast
    rw [hrecord]
    exact hlasts _ _ hlast
  refine wp_mono ?_ (wp_and.mpr ⟨h, hinvariant⟩)
  rintro (value | failure | _) w' ⟨hkept, hlast⟩
  · exact ⟨hkept.1, hkept.2, hlast⟩
  · exact hkept
  · exact hkept

/-- Calls that are allowed after any record with `I`. -/
theorem keeps_guarded_of_only {calls : Call → Prop} {procedure : Proc ε Call Answer α}
    (honly : procedure.Only calls) (hlasts : ∀ record entry, I record → I (record ++ [entry]))
    (hallowed : ∀ record name answer, calls name → I record → allowed record ⟨name, answer⟩)
    {w : σ × List (Answered ε Answer)} (h : GuardedWith allowed I w) :
    procedure.Keeps (recording serves) (GuardedWith allowed I) (fun _ _ => True) w := by
  refine keeps_of_only ?_ honly h
  rintro ⟨w₁, record₁⟩ name answer ⟨w₂, record₂⟩ hcall ⟨_, hrecord⟩ ⟨hguarded, hI⟩
  obtain rfl : record₂ = record₁ ++ [⟨name, answer⟩] := hrecord
  exact ⟨guarded_snoc hguarded (hallowed record₁ name answer hcall hI), hlasts _ _ hI⟩

end Guards

/-! ## Fixed answers -/

/-- The call that a procedure makes next. -/
def Proc.pending : Proc ε Call Answer α → Option Call
  | .call name _ => some name
  | _ => none

/-- What is left of a procedure after so many calls, when a function answers them. -/
def Proc.after (respond : σ → (name : Call) → Except ε (Answer name) × σ) :
    Nat → Proc ε Call Answer α → σ × List (Answered ε Answer) →
      Proc ε Call Answer α × σ × List (Answered ε Answer)
  | count + 1, .call name next, w =>
      let served := respond w.1 name
      after respond count (next served.1) (served.2, w.2 ++ [⟨name, served.1⟩])
  | _, procedure, w => (procedure, w)

/-- The end of a procedure when a function answers its calls. -/
def Proc.finish (respond : σ → (name : Call) → Except ε (Answer name) × σ) :
    Proc ε Call Answer α → σ → Ending ε α × σ
  | .ret value, w => (.returned value, w)
  | .throw failure, w => (.threw failure, w)
  | .call name next, w =>
      let served := respond w name
      (next served.1).finish respond served.2

section FixedAnswers

variable {serves : Serves σ ε Call Answer}
  {respond : σ → (name : Call) → Except ε (Answer name) × σ}

/-- Such an execution may end after any of its calls. -/
theorem exec_after (hserves : ∀ w name, serves w name (respond w name).1 (respond w name).2)
    (count : Nat) (procedure : Proc ε Call Answer α) (w : σ × List (Answered ε Answer)) :
    Exec (recording serves) procedure w .crashed (procedure.after respond count w).2 := by
  induction count generalizing procedure w with
  | zero => exact .crash
  | succ count ih =>
      cases procedure with
      | ret value => exact .crash
      | throw failure => exact .crash
      | call name next => exact .call ⟨hserves w.1 name, rfl⟩ (ih _ _)

/-- Such an execution comes to its end. -/
theorem exec_finish (hserves : ∀ w name, serves w name (respond w name).1 (respond w name).2)
    (procedure : Proc ε Call Answer α) (w : σ) :
    Exec serves procedure w (procedure.finish respond w).1 (procedure.finish respond w).2 := by
  induction procedure generalizing w with
  | ret value => exact .ret
  | throw failure => exact .throw
  | call name next ih => exact .call (hserves w name) (ih _ _)

/-- The next call is recorded with its answer. -/
theorem after_succ {count : Nat} {procedure : Proc ε Call Answer α}
    {w : σ × List (Answered ε Answer)} {name : Call}
    (h : (procedure.after respond count w).1.pending = some name) :
    (procedure.after respond (count + 1) w).2.2 = (procedure.after respond count w).2.2 ++
      [⟨name, (respond (procedure.after respond count w).2.1 name).1⟩] := by
  induction count generalizing procedure w with
  | zero =>
      cases procedure with
      | ret value => cases h
      | throw failure => cases h
      | call name' next =>
          cases h
          rfl
  | succ count ih =>
      cases procedure with
      | ret value => cases h
      | throw failure => cases h
      | call name' next => exact ih h

end FixedAnswers

end Kit
