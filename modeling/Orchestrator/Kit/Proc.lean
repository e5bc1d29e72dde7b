import Mathlib.Data.List.Basic

/-! # Procedures that call out and may crash

A procedure returns, throws, or makes a call and goes on with the answer. What a
call does to the world around it, and which answers it may give, is a relation; an
execution may end between any two calls. `wp` is the weakest precondition for a
postcondition on every way an execution can end, with a rule for each way to build
a procedure, so that a property of all executions, crashes included, is computed
along the text of the procedure.
-/

namespace Kit

variable {ε Call : Type} {Answer : Call → Type} {α β γ σ : Type}

inductive Proc (ε Call : Type) (Answer : Call → Type) (α : Type) : Type
  | ret (value : α)
  | throw (failure : ε)
  | call (name : Call) (next : Except ε (Answer name) → Proc ε Call Answer α)

namespace Proc

def bind : Proc ε Call Answer α → (α → Proc ε Call Answer β) → Proc ε Call Answer β
  | .ret value, rest => rest value
  | .throw failure, _ => .throw failure
  | .call name next, rest => .call name fun answer => (next answer).bind rest

instance : Monad (Proc ε Call Answer) where
  pure := .ret
  bind := bind

/-- Make one call; its failure is thrown. -/
def perform (name : Call) : Proc ε Call Answer (Answer name) :=
  .call name fun answer =>
    match answer with
    | .ok value => .ret value
    | .error failure => .throw failure

/-- `try { body } catch (failure) { handler }`. -/
def tryCatch : Proc ε Call Answer α → (ε → Proc ε Call Answer α) → Proc ε Call Answer α
  | .ret value, _ => .ret value
  | .throw failure, handler => handler failure
  | .call name next, handler => .call name fun answer => (next answer).tryCatch handler

/-- The outcome of `body` as a value: what it returns, or what it throws. -/
def result (body : Proc ε Call Answer α) : Proc ε Call Answer (Except ε α) :=
  (body >>= fun value => pure (.ok value)).tryCatch fun failure => pure (.error failure)

/-- A loop over `items` that collects a result for each, unless one of them ends it. -/
def collect {ω : Type} (body : β → Proc ε Call Answer (Except ω γ)) :
    List β → Proc ε Call Answer (Except ω (List γ))
  | [] => pure (.ok [])
  | item :: items => do
      match ← body item with
      | .error early => pure (.error early)
      | .ok result =>
          match ← collect body items with
          | .error early => pure (.error early)
          | .ok results => pure (.ok (result :: results))

/-- The same loop when its body looks at the results collected before; it begins with `done`. -/
def collectFrom {ω : Type} (body : List γ → β → Proc ε Call Answer (Except ω γ)) :
    List γ → List β → Proc ε Call Answer (Except ω (List γ))
  | done, [] => pure (.ok done)
  | done, item :: items => do
      match ← body done item with
      | .error early => pure (.error early)
      | .ok result => collectFrom body (done ++ [result]) items

/-- A loop over `items` that collects a result for each. -/
def each (body : β → Proc ε Call Answer γ) : List β → Proc ε Call Answer (List γ)
  | [] => pure []
  | item :: items => do
      let result ← body item
      let results ← each body items
      pure (result :: results)

end Proc

/-- How an execution ends. -/
inductive Ending (ε α : Type)
  | returned (value : α)
  | threw (failure : ε)
  | crashed

/-- `serves w name answer w'`: in the world `w` the call may be answered so, leaving `w'`. -/
abbrev Serves (σ ε Call : Type) (Answer : Call → Type) :=
  σ → (name : Call) → Except ε (Answer name) → σ → Prop

variable (serves : Serves σ ε Call Answer)

/-- One execution, up to its end or to a crash. -/
inductive Exec : Proc ε Call Answer α → σ → Ending ε α → σ → Prop
  | ret {value w} : Exec (.ret value) w (.returned value) w
  | throw {failure w} : Exec (.throw failure) w (.threw failure) w
  | crash {procedure w} : Exec procedure w .crashed w
  | call {name next w answer w' ending w''} (hserves : serves w name answer w')
      (hrest : Exec (next answer) w' ending w'') : Exec (.call name next) w ending w''

/-- The weakest precondition of `post` for every execution. -/
def Proc.wp (post : Ending ε α → σ → Prop) : Proc ε Call Answer α → σ → Prop
  | .ret value, w => post (.returned value) w ∧ post .crashed w
  | .throw failure, w => post (.threw failure) w ∧ post .crashed w
  | .call name next, w =>
      post .crashed w ∧ ∀ answer w', serves w name answer w' → (next answer).wp post w'

/-- The postcondition of the first of two procedures in a row. -/
def Ending.Then (rest : α → σ → Prop) (post : Ending ε β → σ → Prop) : Ending ε α → σ → Prop
  | .returned value, w => rest value w
  | .threw failure, w => post (.threw failure) w
  | .crashed, w => post .crashed w

/-- The postcondition of the body of a `try`. -/
def Ending.Else (handler : ε → σ → Prop) (post : Ending ε α → σ → Prop) :
    Ending ε α → σ → Prop
  | .returned value, w => post (.returned value) w
  | .threw failure, w => handler failure w
  | .crashed, w => post .crashed w

/-- The postcondition of one round of a loop. -/
def Ending.Early {ω δ : Type} (next : γ → σ → Prop) (post : Ending ε (Except ω δ) → σ → Prop) :
    Ending ε (Except ω γ) → σ → Prop
  | .returned (.ok result), w => next result w
  | .returned (.error early), w => post (.returned (.error early)) w ∧ post .crashed w
  | .threw failure, w => post (.threw failure) w
  | .crashed, w => post .crashed w

variable {serves} {post post' : Ending ε α → σ → Prop}

/-! ## Rules -/

theorem wp_iff {procedure : Proc ε Call Answer α} {w : σ} :
    procedure.wp serves post w ↔
      ∀ ending w', Exec serves procedure w ending w' → post ending w' := by
  induction procedure generalizing w with
  | ret value =>
      constructor
      · intro h ending w' hexec
        cases hexec with
        | ret => exact h.1
        | crash => exact h.2
      · intro h
        exact ⟨h _ _ .ret, h _ _ .crash⟩
  | throw failure =>
      constructor
      · intro h ending w' hexec
        cases hexec with
        | throw => exact h.1
        | crash => exact h.2
      · intro h
        exact ⟨h _ _ .throw, h _ _ .crash⟩
  | call name next ih =>
      constructor
      · intro h ending w' hexec
        cases hexec with
        | crash => exact h.1
        | call hserves hrest => exact (ih _).mp (h.2 _ _ hserves) _ _ hrest
      · intro h
        refine ⟨h _ _ .crash, ?_⟩
        intro answer w' hserves
        exact (ih answer).mpr fun ending w'' hrest => h _ _ (.call hserves hrest)

/-- The crash case of every postcondition. -/
theorem wp_crashed {procedure : Proc ε Call Answer α} {w : σ} (h : procedure.wp serves post w) :
    post .crashed w :=
  wp_iff.mp h _ _ .crash

theorem wp_mono (hpost : ∀ ending w, post ending w → post' ending w)
    {procedure : Proc ε Call Answer α} {w : σ} (h : procedure.wp serves post w) :
    procedure.wp serves post' w :=
  wp_iff.mpr fun ending w' hexec => hpost ending w' (wp_iff.mp h ending w' hexec)

theorem wp_and {procedure : Proc ε Call Answer α} {w : σ} :
    procedure.wp serves (fun ending w => post ending w ∧ post' ending w) w ↔
      procedure.wp serves post w ∧ procedure.wp serves post' w := by
  simp only [wp_iff]
  constructor
  · intro h
    exact ⟨fun ending w' hexec => (h ending w' hexec).1,
      fun ending w' hexec => (h ending w' hexec).2⟩
  · rintro ⟨hleft, hright⟩ ending w' hexec
    exact ⟨hleft ending w' hexec, hright ending w' hexec⟩

@[simp] theorem wp_pure {value : α} {w : σ} :
    (pure value : Proc ε Call Answer α).wp serves post w ↔
      post (.returned value) w ∧ post .crashed w :=
  Iff.rfl

@[simp] theorem wp_throw {failure : ε} {w : σ} :
    (Proc.throw failure : Proc ε Call Answer α).wp serves post w ↔
      post (.threw failure) w ∧ post .crashed w :=
  Iff.rfl

theorem wp_bind {post : Ending ε β → σ → Prop} {procedure : Proc ε Call Answer α}
    {rest : α → Proc ε Call Answer β} {w : σ} :
    (procedure >>= rest).wp serves post w ↔
      procedure.wp serves (Ending.Then (fun value => (rest value).wp serves post) post) w := by
  induction procedure generalizing w with
  | ret value =>
      constructor
      · intro h
        have hrest : (rest value).wp serves post w := h
        exact ⟨hrest, show post .crashed w from wp_crashed hrest⟩
      · intro h
        exact h.1
  | throw failure => exact Iff.rfl
  | call name next ih =>
      constructor
      · intro h
        exact ⟨h.1, fun answer w' hserves => (ih answer).mp (h.2 answer w' hserves)⟩
      · intro h
        exact ⟨h.1, fun answer w' hserves => (ih answer).mpr (h.2 answer w' hserves)⟩

theorem wp_tryCatch {body : Proc ε Call Answer α} {handler : ε → Proc ε Call Answer α} {w : σ} :
    (body.tryCatch handler).wp serves post w ↔
      body.wp serves (Ending.Else (fun failure => (handler failure).wp serves post) post) w := by
  induction body generalizing w with
  | ret value => exact Iff.rfl
  | throw failure =>
      constructor
      · intro h
        have hhandler : (handler failure).wp serves post w := h
        exact ⟨hhandler, show post .crashed w from wp_crashed hhandler⟩
      · intro h
        exact h.1
  | call name next ih =>
      constructor
      · intro h
        exact ⟨h.1, fun answer w' hserves => (ih answer).mp (h.2 answer w' hserves)⟩
      · intro h
        exact ⟨h.1, fun answer w' hserves => (ih answer).mpr (h.2 answer w' hserves)⟩

/-- One call: the crash before it, and each of its answers. -/
theorem wp_perform {name : Call} {post : Ending ε (Answer name) → σ → Prop} {w : σ} :
    (Proc.perform name).wp serves post w ↔
      post .crashed w ∧
        (∀ value w', serves w name (.ok value) w' →
          post (.returned value) w' ∧ post .crashed w') ∧
        ∀ failure w', serves w name (.error failure) w' →
          post (.threw failure) w' ∧ post .crashed w' := by
  constructor
  · intro h
    exact ⟨h.1, fun value w' hserves => h.2 (.ok value) w' hserves,
      fun failure w' hserves => h.2 (.error failure) w' hserves⟩
  · rintro ⟨hcrash, hok, herror⟩
    refine ⟨hcrash, ?_⟩
    intro answer w' hserves
    cases answer with
    | ok value => exact hok value w' hserves
    | error failure => exact herror failure w' hserves

/-- What no call can break holds however the execution ends. -/
theorem wp_invariant (I : σ → Prop)
    (hcall : ∀ w name answer w', serves w name answer w' → I w → I w')
    (procedure : Proc ε Call Answer α) {w : σ} (h : I w) :
    procedure.wp serves (fun _ w' => I w') w := by
  induction procedure generalizing w with
  | ret value => exact ⟨h, h⟩
  | throw failure => exact ⟨h, h⟩
  | call name next ih =>
      exact ⟨h, fun answer w' hserves => ih answer (hcall w name answer w' hserves h)⟩

/-- The loop rule: `I done results` holds when the items `done` have given `results`. -/
theorem wp_collect {ω : Type} {body : β → Proc ε Call Answer (Except ω γ)}
    {post : Ending ε (Except ω (List γ)) → σ → Prop} (I : List β → List γ → σ → Prop)
    {items : List β}
    (hbody : ∀ done item rest results w, items = done ++ item :: rest → I done results w →
      (body item).wp serves
        (Ending.Early (fun result => I (done ++ [item]) (results ++ [result])) post) w)
    (hcrash : ∀ done results w, I done results w → post .crashed w)
    (hdone : ∀ results w, I items results w → post (.returned (.ok results)) w)
    {w : σ} (h : I [] [] w) : (Proc.collect body items).wp serves post w := by
  -- Generalized to a loop that has already done some of the items.
  suffices hloop : ∀ rest done results w, items = done ++ rest → I done results w →
      (Proc.collect body rest).wp serves (Ending.Early (fun more w =>
        post (.returned (.ok (results ++ more))) w ∧ post .crashed w) post) w by
    refine wp_mono ?_ (hloop items [] [] w rfl h)
    rintro (⟨early | more⟩ | failure | _) w' hpost
    · exact hpost.1
    · exact hpost.1
    · exact hpost
    · exact hpost
  intro rest
  induction rest with
  | nil =>
      intro done results w heq hI
      rw [List.append_nil] at heq
      subst heq
      refine ⟨⟨?_, hcrash _ _ _ hI⟩, hcrash _ _ _ hI⟩
      rw [List.append_nil]
      exact hdone _ _ hI
  | cons item rest ih =>
      intro done results w heq hI
      rw [Proc.collect, wp_bind]
      refine wp_mono ?_ (hbody done item rest results w heq hI)
      rintro (⟨early | result⟩ | failure | _) w' hpost
      · exact ⟨hpost, hpost.2⟩
      · show (Proc.collect body rest >>= _).wp serves _ w'
        rw [wp_bind]
        refine wp_mono ?_ (ih (done ++ [item]) (results ++ [result]) w' (by simp [heq]) hpost)
        rintro (⟨early | more⟩ | failure | _) w'' hmore
        · exact ⟨hmore, hmore.2⟩
        · obtain ⟨hreturned, hcrashed⟩ := hmore
          rw [List.append_assoc, List.singleton_append] at hreturned
          exact ⟨⟨hreturned, hcrashed⟩, hcrashed⟩
        · exact hmore
        · exact hmore
      · exact hpost
      · exact hpost

/-! ## Building executions -/

section Build

variable {procedure : Proc ε Call Answer α} {w w' w'' : σ} {value : α}

theorem exec_perform {name : Call} {value : Answer name} (h : serves w name (.ok value) w') :
    Exec serves (Proc.perform name) w (.returned value) w' :=
  .call h .ret

theorem exec_bind {rest : α → Proc ε Call Answer β} {ending : Ending ε β}
    (h : Exec serves procedure w (.returned value) w')
    (hrest : Exec serves (rest value) w' ending w'') :
    Exec serves (procedure >>= rest) w ending w'' := by
  induction procedure generalizing w with
  | ret returned =>
      cases h
      exact hrest
  | throw failure => cases h
  | call name next ih =>
      cases h with
      | call hserves hnext => exact .call hserves (ih _ hnext)

theorem exec_bind_crashed {rest : α → Proc ε Call Answer β}
    (h : Exec serves procedure w .crashed w') :
    Exec serves (procedure >>= rest) w .crashed w' := by
  induction procedure generalizing w with
  | ret returned =>
      cases h
      exact .crash
  | throw failure =>
      cases h
      exact .crash
  | call name next ih =>
      cases h with
      | crash => exact .crash
      | call hserves hnext => exact .call hserves (ih _ hnext)

theorem exec_tryCatch_crashed {handler : ε → Proc ε Call Answer α}
    (h : Exec serves procedure w .crashed w') :
    Exec serves (procedure.tryCatch handler) w .crashed w' := by
  induction procedure generalizing w with
  | ret returned =>
      cases h
      exact .crash
  | throw failure =>
      cases h
      exact .crash
  | call name next ih =>
      cases h with
      | crash => exact .crash
      | call hserves hnext => exact .call hserves (ih _ hnext)

end Build

/-- If every call is answered, some execution comes to its end. -/
theorem exec_ends (htotal : ∀ w name, ∃ answer w', serves w name answer w')
    (procedure : Proc ε Call Answer α) (w : σ) :
    ∃ ending w', Exec serves procedure w ending w' ∧ ending ≠ .crashed := by
  induction procedure generalizing w with
  | ret value => exact ⟨_, w, .ret, nofun⟩
  | throw failure => exact ⟨_, w, .throw, nofun⟩
  | call name next ih =>
      rcases htotal w name with ⟨answer, w', hserves⟩
      rcases ih answer w' with ⟨ending, w'', hrest, hends⟩
      exact ⟨ending, w'', .call hserves hrest, hends⟩

/-! ## Crashes and new attempts -/

/-- What crashed executions leave behind, each started where the one before ended. -/
inductive Crashes (serves : Serves σ ε Call Answer) (procedure : Proc ε Call Answer α) (w : σ) :
    σ → Prop
  | none : Crashes serves procedure w w
  | again {w' w'' : σ} (h : Crashes serves procedure w w')
      (hcrash : Exec serves procedure w' .crashed w'') : Crashes serves procedure w w''

/-- The invariant rule for attempts that crash. -/
theorem crashes_invariant (I : σ → Prop) {procedure : Proc ε Call Answer α}
    (hattempt : ∀ w, I w → procedure.wp serves (fun ending w' => ending = .crashed → I w') w)
    {w w' : σ} (h : Crashes serves procedure w w') (hI : I w) : I w' := by
  induction h with
  | none => exact hI
  | again _ hcrash ih => exact wp_iff.mp (hattempt _ ih) _ _ hcrash rfl

/-! ## Crash triples -/

/-- `I` holds however the execution ends, and `Q` of what it returns. -/
def Ending.Kept (I : σ → Prop) (Q : α → σ → Prop) : Ending ε α → σ → Prop
  | .returned value, w => I w ∧ Q value w
  | .threw _, w => I w
  | .crashed, w => I w

/-- Every execution keeps the crash condition `I`, and one that returns ends in `Q`. -/
def Proc.Keeps (serves : Serves σ ε Call Answer) (I : σ → Prop) (Q : α → σ → Prop)
    (procedure : Proc ε Call Answer α) (w : σ) : Prop :=
  procedure.wp serves (Ending.Kept I Q) w

section Keeps

variable {I : σ → Prop} {Q Q' : α → σ → Prop}

theorem keeps_iff {procedure : Proc ε Call Answer α} {w : σ} :
    procedure.Keeps serves I Q w ↔
      ∀ ending w', Exec serves procedure w ending w' →
        I w' ∧ ∀ value, ending = .returned value → Q value w' := by
  unfold Proc.Keeps
  rw [wp_iff]
  constructor
  · intro h ending w' hexec
    have hkept := h ending w' hexec
    cases ending with
    | returned value =>
        refine ⟨hkept.1, ?_⟩
        rintro _ ⟨⟩
        exact hkept.2
    | threw failure => exact ⟨hkept, nofun⟩
    | crashed => exact ⟨hkept, nofun⟩
  · intro h ending w' hexec
    have hends := h ending w' hexec
    cases ending with
    | returned value => exact ⟨hends.1, hends.2 value rfl⟩
    | threw failure => exact hends.1
    | crashed => exact hends.1

theorem keeps_mono {I' : σ → Prop} {procedure : Proc ε Call Answer α} {w : σ}
    (hI : ∀ w', I w' → I' w') (hpost : ∀ value w', I w' → Q value w' → Q' value w')
    (h : procedure.Keeps serves I Q w) : procedure.Keeps serves I' Q' w := by
  refine wp_mono ?_ h
  rintro (value | failure | _) w' hkept
  · exact ⟨hI w' hkept.1, hpost value w' hkept.1 hkept.2⟩
  · exact hI w' hkept
  · exact hI w' hkept

theorem keeps_and {I' : σ → Prop} {procedure : Proc ε Call Answer α} {w : σ}
    (h : procedure.Keeps serves I Q w) (h' : procedure.Keeps serves I' Q' w) :
    procedure.Keeps serves (fun w' => I w' ∧ I' w') (fun value w' => Q value w' ∧ Q' value w') w := by
  refine wp_mono ?_ (wp_and.mpr ⟨h, h'⟩)
  rintro (value | failure | _) w' ⟨hleft, hright⟩
  · exact ⟨⟨hleft.1, hright.1⟩, hleft.2, hright.2⟩
  · exact ⟨hleft, hright⟩
  · exact ⟨hleft, hright⟩

theorem keeps_pure {value : α} {w : σ} (hI : I w) (hQ : Q value w) :
    (pure value : Proc ε Call Answer α).Keeps serves I Q w :=
  ⟨⟨hI, hQ⟩, hI⟩

theorem keeps_throw {failure : ε} {w : σ} (hI : I w) :
    (Proc.throw failure : Proc ε Call Answer α).Keeps serves I Q w :=
  ⟨hI, hI⟩

theorem keeps_bind {R : α → σ → Prop} {Q : β → σ → Prop} {procedure : Proc ε Call Answer α}
    {rest : α → Proc ε Call Answer β} {w : σ} (h : procedure.Keeps serves I R w)
    (hrest : ∀ value w', I w' → R value w' → (rest value).Keeps serves I Q w') :
    (procedure >>= rest).Keeps serves I Q w := by
  unfold Proc.Keeps
  rw [wp_bind]
  refine wp_mono ?_ h
  rintro (value | failure | _) w' hkept
  · exact hrest value w' hkept.1 hkept.2
  · exact hkept
  · exact hkept

/-- `keeps_bind` with the weakest postcondition of the first procedure. -/
theorem keeps_bind_rest {Q : β → σ → Prop} {procedure : Proc ε Call Answer α}
    {rest : α → Proc ε Call Answer β} {w : σ}
    (h : procedure.Keeps serves I (fun value w' => (rest value).Keeps serves I Q w') w) :
    (procedure >>= rest).Keeps serves I Q w :=
  keeps_bind h fun _ _ _ hrest => hrest

theorem keeps_tryCatch {body : Proc ε Call Answer α} {handler : ε → Proc ε Call Answer α} {w : σ}
    (h : body.Keeps serves I Q w)
    (hhandler : ∀ failure w', I w' → (handler failure).Keeps serves I Q w') :
    (body.tryCatch handler).Keeps serves I Q w := by
  unfold Proc.Keeps
  rw [wp_tryCatch]
  refine wp_mono ?_ h
  rintro (value | failure | _) w' hkept
  · exact hkept
  · exact hhandler failure w' hkept
  · exact hkept

theorem keeps_perform {name : Call} {Q : Answer name → σ → Prop} {w : σ} (hI : I w)
    (hanswer : ∀ answer w', serves w name answer w' →
      I w' ∧ ∀ value, answer = .ok value → Q value w') :
    (Proc.perform name).Keeps serves I Q w := by
  refine wp_perform.mpr ⟨hI, ?_, ?_⟩
  · intro value w' hserves
    obtain ⟨hkept, hvalue⟩ := hanswer _ _ hserves
    exact ⟨⟨hkept, hvalue value rfl⟩, hkept⟩
  · intro failure w' hserves
    obtain ⟨hkept, _⟩ := hanswer _ _ hserves
    exact ⟨hkept, hkept⟩

/-- The loop rule of `wp_collect` for crash triples: the loop ends early in `Q`. -/
theorem keeps_collect {ω : Type} {body : β → Proc ε Call Answer (Except ω γ)}
    {Q : Except ω (List γ) → σ → Prop} (J : List β → List γ → σ → Prop) {items : List β}
    (hbody : ∀ done item rest results w, items = done ++ item :: rest → I w →
      J done results w → (body item).Keeps serves I (fun result w' =>
        match result with
        | .error early => Q (.error early) w'
        | .ok value => J (done ++ [item]) (results ++ [value]) w') w)
    (hdone : ∀ results w, I w → J items results w → Q (.ok results) w)
    {w : σ} (hI : I w) (h : J [] [] w) : (Proc.collect body items).Keeps serves I Q w := by
  refine wp_collect (fun done results w => I w ∧ J done results w) ?_ ?_ ?_ ⟨hI, h⟩
  · rintro done item rest results w heq ⟨hkept, hJ⟩
    refine wp_mono ?_ (hbody done item rest results w heq hkept hJ)
    rintro (⟨early | result⟩ | failure | _) w' hends
    · exact ⟨hends, hends.1⟩
    · exact hends
    · exact hends
    · exact hends
  · rintro done results w ⟨hkept, _⟩
    exact hkept
  · rintro results w ⟨hkept, hJ⟩
    exact ⟨hkept, hdone results w hkept hJ⟩

/-- The loop rule of a loop that runs to its end. -/
theorem keeps_each {body : β → Proc ε Call Answer γ} {Q : List γ → σ → Prop}
    (J : List β → List γ → σ → Prop) {items : List β}
    (hbody : ∀ done item rest results w, items = done ++ item :: rest → I w →
      J done results w → (body item).Keeps serves I (fun result w' =>
        J (done ++ [item]) (results ++ [result]) w') w)
    (hdone : ∀ results w, I w → J items results w → Q results w)
    {w : σ} (hI : I w) (h : J [] [] w) : (Proc.each body items).Keeps serves I Q w := by
  -- Generalized to a loop that has already done some of the items.
  suffices hloop : ∀ rest done results w, items = done ++ rest → I w → J done results w →
      (Proc.each body rest).Keeps serves I (fun more w => Q (results ++ more) w) w by
    exact hloop items [] [] w rfl hI h
  intro rest
  induction rest with
  | nil =>
      intro done results w heq hkept hJ
      rw [List.append_nil] at heq
      subst heq
      refine keeps_pure hkept ?_
      rw [List.append_nil]
      exact hdone results w hkept hJ
  | cons item rest ih =>
      intro done results w heq hkept hJ
      refine keeps_bind (hbody done item rest results w heq hkept hJ) ?_
      intro result w' hkept' hJ'
      refine keeps_bind (ih (done ++ [item]) (results ++ [result]) w' (by simp [heq]) hkept' hJ') ?_
      intro more w'' hkept'' hQ
      refine keeps_pure hkept'' ?_
      rwa [List.append_assoc, List.singleton_append] at hQ

end Keeps

/-! ## Which calls a procedure makes -/

/-- Whatever is answered, the procedure makes only these calls. -/
def Proc.Only (allowed : Call → Prop) : Proc ε Call Answer α → Prop
  | .ret _ => True
  | .throw _ => True
  | .call name next => allowed name ∧ ∀ answer, (next answer).Only allowed

section Only

variable {allowed allowed' : Call → Prop}

@[simp] theorem only_pure {value : α} :
    (pure value : Proc ε Call Answer α).Only allowed ↔ True := Iff.rfl

@[simp] theorem only_throw {failure : ε} :
    (Proc.throw failure : Proc ε Call Answer α).Only allowed ↔ True := Iff.rfl

@[simp] theorem only_perform {name : Call} :
    (Proc.perform name : Proc ε Call Answer (Answer name)).Only allowed ↔ allowed name := by
  constructor
  · intro h
    exact h.1
  · intro h
    refine ⟨h, ?_⟩
    rintro (failure | value)
    · exact trivial
    · exact trivial

theorem only_bind {procedure : Proc ε Call Answer α} {rest : α → Proc ε Call Answer β}
    (h : procedure.Only allowed) (hrest : ∀ value, (rest value).Only allowed) :
    (procedure >>= rest).Only allowed := by
  induction procedure with
  | ret value => exact hrest value
  | throw failure => exact trivial
  | call name next ih => exact ⟨h.1, fun answer => ih answer (h.2 answer)⟩

theorem only_tryCatch {body : Proc ε Call Answer α} {handler : ε → Proc ε Call Answer α}
    (h : body.Only allowed) (hhandler : ∀ failure, (handler failure).Only allowed) :
    (body.tryCatch handler).Only allowed := by
  induction body with
  | ret value => exact trivial
  | throw failure => exact hhandler failure
  | call name next ih => exact ⟨h.1, fun answer => ih answer (h.2 answer)⟩

theorem only_collect {ω : Type} {body : β → Proc ε Call Answer (Except ω γ)}
    (h : ∀ item, (body item).Only allowed) (items : List β) :
    (Proc.collect body items).Only allowed := by
  induction items with
  | nil => exact trivial
  | cons item items ih =>
      refine only_bind (h item) ?_
      rintro (early | result)
      · exact trivial
      · refine only_bind ih ?_
        rintro (early | results)
        · exact trivial
        · exact trivial

theorem only_collectFrom {ω : Type} {body : List γ → β → Proc ε Call Answer (Except ω γ)}
    (h : ∀ done item, (body done item).Only allowed) (done : List γ) (items : List β) :
    (Proc.collectFrom body done items).Only allowed := by
  induction items generalizing done with
  | nil => exact trivial
  | cons item items ih =>
      refine only_bind (h done item) ?_
      rintro (early | result)
      · exact trivial
      · exact ih (done ++ [result])

theorem only_each {body : β → Proc ε Call Answer γ} (h : ∀ item, (body item).Only allowed)
    (items : List β) : (Proc.each body items).Only allowed := by
  induction items with
  | nil => exact trivial
  | cons item items ih => exact only_bind (h item) fun result => only_bind ih fun _ => trivial

theorem only_mono (hallowed : ∀ name, allowed name → allowed' name)
    {procedure : Proc ε Call Answer α} (h : procedure.Only allowed) :
    procedure.Only allowed' := by
  induction procedure with
  | ret value => exact trivial
  | throw failure => exact trivial
  | call name next ih => exact ⟨hallowed name h.1, fun answer => ih answer (h.2 answer)⟩

/-- What the allowed calls keep, the procedure keeps. -/
theorem keeps_of_only {I : σ → Prop}
    (hcall : ∀ w name answer w', allowed name → serves w name answer w' → I w → I w')
    {procedure : Proc ε Call Answer α} (h : procedure.Only allowed) {w : σ} (hI : I w) :
    procedure.Keeps serves I (fun _ _ => True) w := by
  induction procedure generalizing w with
  | ret value => exact ⟨⟨hI, trivial⟩, hI⟩
  | throw failure => exact ⟨hI, hI⟩
  | call name next ih =>
      refine ⟨hI, ?_⟩
      intro answer w' hserves
      exact ih answer (h.2 answer) (hcall w name answer w' h.1 hserves hI)

end Only

/-! ## What a procedure can return -/

/-- Whatever is answered, a value returned satisfies `Q`. -/
def Proc.Returns (Q : α → Prop) : Proc ε Call Answer α → Prop
  | .ret value => Q value
  | .throw _ => True
  | .call _ next => ∀ answer, (next answer).Returns Q

section Returns

variable {Q : α → Prop}

@[simp] theorem returns_pure {value : α} :
    (pure value : Proc ε Call Answer α).Returns Q ↔ Q value := Iff.rfl

@[simp] theorem returns_throw {failure : ε} :
    (Proc.throw failure : Proc ε Call Answer α).Returns Q ↔ True := Iff.rfl

theorem returns_bind {R : α → Prop} {Q : β → Prop} {procedure : Proc ε Call Answer α}
    {rest : α → Proc ε Call Answer β} (h : procedure.Returns R)
    (hrest : ∀ value, R value → (rest value).Returns Q) : (procedure >>= rest).Returns Q := by
  induction procedure with
  | ret value => exact hrest value h
  | throw failure => exact trivial
  | call name next ih => exact fun answer => ih answer (h answer)

theorem returns_mono {R : α → Prop} (hpost : ∀ value, R value → Q value)
    {procedure : Proc ε Call Answer α} (h : procedure.Returns R) : procedure.Returns Q := by
  induction procedure with
  | ret value => exact hpost value h
  | throw failure => exact trivial
  | call name next ih => exact fun answer => ih answer (h answer)

theorem returns_true (procedure : Proc ε Call Answer α) :
    procedure.Returns fun _ => True := by
  induction procedure with
  | ret value => exact trivial
  | throw failure => exact trivial
  | call name next ih => exact ih

/-- The first of two procedures may return anything. -/
theorem returns_rest {Q : β → Prop} {procedure : Proc ε Call Answer α}
    {rest : α → Proc ε Call Answer β} (hrest : ∀ value, (rest value).Returns Q) :
    (procedure >>= rest).Returns Q :=
  returns_bind (returns_true procedure) fun value _ => hrest value

theorem returns_tryCatch {body : Proc ε Call Answer α} {handler : ε → Proc ε Call Answer α}
    (h : body.Returns Q) (hhandler : ∀ failure, (handler failure).Returns Q) :
    (body.tryCatch handler).Returns Q := by
  induction body with
  | ret value => exact h
  | throw failure => exact hhandler failure
  | call name next ih => exact fun answer => ih answer (h answer)

theorem returns_result {body : Proc ε Call Answer α} (h : body.Returns Q) :
    body.result.Returns fun ended => ∀ value, ended = .ok value → Q value := by
  refine returns_tryCatch (returns_bind h ?_) fun failure => nofun
  rintro value hvalue _ ⟨⟩
  exact hvalue

/-- An early result is in `R`. -/
def EarlyIn {ω : Type} (R : ω → Prop) : Except ω γ → Prop
  | .error early => R early
  | .ok _ => True

theorem returns_collect {ω : Type} {body : β → Proc ε Call Answer (Except ω γ)}
    {R : ω → Prop} (h : ∀ item, (body item).Returns (EarlyIn R)) (items : List β) :
    (Proc.collect body items).Returns (EarlyIn R) := by
  induction items with
  | nil => exact trivial
  | cons item items ih =>
      refine returns_bind (h item) ?_
      rintro (early | result) hearly
      · exact hearly
      · refine returns_bind ih ?_
        rintro (early | results) hmore
        · exact hmore
        · exact trivial

theorem returns_collectFrom {ω : Type} {body : List γ → β → Proc ε Call Answer (Except ω γ)}
    {R : ω → Prop} (h : ∀ done item, (body done item).Returns (EarlyIn R)) (done : List γ)
    (items : List β) : (Proc.collectFrom body done items).Returns (EarlyIn R) := by
  induction items generalizing done with
  | nil => exact trivial
  | cons item items ih =>
      refine returns_bind (h done item) ?_
      rintro (early | result) hearly
      · exact hearly
      · exact ih (done ++ [result])

theorem Exec.returns {procedure : Proc ε Call Answer α} (h : procedure.Returns Q) {w w' : σ}
    {value : α} (hexec : Exec serves procedure w (.returned value) w') : Q value := by
  induction procedure generalizing w with
  | ret value =>
      cases hexec
      exact h
  | throw failure => cases hexec
  | call name next ih =>
      cases hexec with
      | call _ hrest => exact ih _ (h _) hrest

/-- A crash triple, with what the procedure can return. -/
theorem keeps_returns {I : σ → Prop} {R : α → σ → Prop} {procedure : Proc ε Call Answer α} {w : σ}
    (hkeeps : procedure.Keeps serves I R w) (hreturns : procedure.Returns Q) :
    procedure.Keeps serves I (fun value w' => R value w' ∧ Q value) w := by
  rw [keeps_iff] at hkeeps ⊢
  intro ending w' hexec
  have hends := hkeeps ending w' hexec
  refine ⟨hends.1, ?_⟩
  rintro value rfl
  exact ⟨hends.2 value rfl, hexec.returns hreturns⟩

end Returns

/-! ## What a procedure can throw -/

/-- If every failure of a call is in `R`, so is every failure thrown. -/
def Proc.Throws (R : ε → Prop) : Proc ε Call Answer α → Prop
  | .ret _ => True
  | .throw failure => R failure
  | .call _ next =>
      ∀ answer, (∀ failure, answer = .error failure → R failure) → (next answer).Throws R

section Throws

variable {R : ε → Prop}

@[simp] theorem throws_pure {value : α} :
    (pure value : Proc ε Call Answer α).Throws R ↔ True := Iff.rfl

@[simp] theorem throws_throw {failure : ε} :
    (Proc.throw failure : Proc ε Call Answer α).Throws R ↔ R failure := Iff.rfl

theorem throws_perform (name : Call) :
    (Proc.perform name : Proc ε Call Answer (Answer name)).Throws R := by
  rintro (failure | value) hanswer
  · exact hanswer failure rfl
  · exact trivial

theorem throws_bind {procedure : Proc ε Call Answer α} {rest : α → Proc ε Call Answer β}
    (h : procedure.Throws R) (hrest : ∀ value, (rest value).Throws R) :
    (procedure >>= rest).Throws R := by
  induction procedure with
  | ret value => exact hrest value
  | throw failure => exact h
  | call name next ih => exact fun answer hanswer => ih answer (h answer hanswer)

theorem throws_tryCatch {body : Proc ε Call Answer α} {handler : ε → Proc ε Call Answer α}
    (h : body.Throws R) (hhandler : ∀ failure, R failure → (handler failure).Throws R) :
    (body.tryCatch handler).Throws R := by
  induction body with
  | ret value => exact trivial
  | throw failure => exact hhandler failure h
  | call name next ih => exact fun answer hanswer => ih answer (h answer hanswer)

end Throws

/-! ## Fixed answers -/

/-- The outcome of a procedure whose calls are answered so. -/
def Proc.answered (answers : (name : Call) → Except ε (Answer name)) :
    Proc ε Call Answer α → Except ε α
  | .ret value => .ok value
  | .throw failure => .error failure
  | .call name next => (next (answers name)).answered answers

section Answered

variable {answers : (name : Call) → Except ε (Answer name)}

@[simp] theorem answered_pure (value : α) :
    (pure value : Proc ε Call Answer α).answered answers = .ok value := rfl

@[simp] theorem answered_throw (failure : ε) :
    (Proc.throw failure : Proc ε Call Answer α).answered answers = .error failure := rfl

@[simp] theorem answered_perform (name : Call) :
    (Proc.perform name).answered answers = answers name := by
  unfold Proc.perform Proc.answered
  cases answers name <;> rfl

@[simp] theorem answered_bind (procedure : Proc ε Call Answer α)
    (rest : α → Proc ε Call Answer β) :
    (procedure >>= rest).answered answers =
      (procedure.answered answers).bind fun value => (rest value).answered answers := by
  induction procedure with
  | ret value => rfl
  | throw failure => rfl
  | call name next ih => exact ih (answers name)

theorem returns_answered {Q : α → Prop} {procedure : Proc ε Call Answer α} {value : α}
    (h : procedure.Returns Q) (hanswered : procedure.answered answers = .ok value) : Q value := by
  induction procedure with
  | ret returned =>
      rcases Except.ok.inj hanswered with rfl
      exact h
  | throw failure => cases hanswered
  | call name next ih => exact ih (answers name) (h (answers name)) hanswered

end Answered

end Kit
