import ComputeKernel.Run.Action

/-!
# What actions achieve and what they keep

Two ways to speak about an action without opening it. `Outcome.Meets` is about one run: `post` holds
of the result and the state if the action succeeded, `broken` of the state if it failed.
`Action.Keeps` is about every run: a property of the state that held before holds after, however the
action ended. What was done before a failure stays done, so an invariant has to be kept by the
failures too.

There is one lemma for each way of putting actions together. A loop over a list keeps what its steps
keep (`Keeps.forEach`), and also has, if it succeeded, what one of its steps establishes and the
others keep (`meets_forEach`). `Action.Safe` says of an action that keeps a property in which ways
it can fail while it holds.
-/

namespace ComputeKernel

variable {σ τ α β κ : Type}

/-- What holds of an outcome: `post` of a success, `broken` of the state after a failure. -/
def Outcome.Meets (o : Outcome σ α) (post : α → σ → Prop) (broken : σ → Prop) : Prop :=
  match o.result with
  | .ok a => post a o.state
  | .error _ => broken o.state

namespace Outcome.Meets

variable {o : Outcome σ α} {post post' : α → σ → Prop} {broken broken' : σ → Prop}
variable {I : σ → Prop}

/-- What holds of a success. -/
theorem of_ok (h : o.Meets post broken) {a : α} (ha : o.result = .ok a) : post a o.state := by
  unfold Meets at h
  rw [ha] at h
  exact h

/-- What holds of a failure. -/
theorem of_error (h : o.Meets post broken) {e : Failure} (he : o.result = .error e) :
    broken o.state := by
  unfold Meets at h
  rw [he] at h
  exact h

/-- A success has what holds of its state. -/
theorem of_result {a : α} (h : o.result = .ok a) (hI : I o.state) :
    o.Meets (fun _ => I) broken := by
  unfold Meets
  rw [h]
  exact hI

/-- What never fails succeeds. -/
theorem succeeds (h : o.Meets post fun _ => False) : ∃ a, o.result = .ok a ∧ post a o.state := by
  unfold Meets at h
  cases hr : o.result with
  | ok a =>
    rw [hr] at h
    exact ⟨a, rfl, h⟩
  | error e =>
    rw [hr] at h
    exact h.elim

/-- Less may be said of either. -/
theorem mono (h : o.Meets post broken) (hp : ∀ a s, post a s → post' a s)
    (hb : ∀ s, broken s → broken' s) : o.Meets post' broken' := by
  unfold Meets at h ⊢
  cases hr : o.result with
  | ok a => rw [hr] at h; exact hp a _ h
  | error e => rw [hr] at h; exact hb _ h

/-- Less may be said of failures. -/
theorem mono_broken (h : o.Meets post broken) (hb : ∀ s, broken s → broken' s) :
    o.Meets post broken' :=
  h.mono (fun _ _ h => h) hb

/-- What holds of the state holds of it in either case. -/
theorem of_state (h : I o.state) : o.Meets (fun _ => I) I := by
  unfold Meets
  cases o.result with
  | ok a => exact h
  | error e => exact h

/-- What holds of the state in either case holds of the state. -/
theorem state (h : o.Meets (fun _ => I) I) : I o.state := by
  unfold Meets at h
  cases hr : o.result with
  | ok a => rw [hr] at h; exact h
  | error e => rw [hr] at h; exact h

/-- A property of the state may be added to both sides. -/
theorem and_state (h : o.Meets post broken) (hI : I o.state) :
    o.Meets (fun a s => post a s ∧ I s) (fun s => broken s ∧ I s) := by
  unfold Meets at h ⊢
  cases hr : o.result with
  | ok a => rw [hr] at h; exact ⟨h, hI⟩
  | error e => rw [hr] at h; exact ⟨h, hI⟩

end Outcome.Meets

namespace Action

variable {a : Action σ α} {f : α → Action σ β} {items : List β} {s : σ}

/-! ## Laws -/

@[simp] theorem ofExcept_ok_bind (a : α) (f : α → Action σ β) : (ofExcept (.ok a) >>= f) = f a := by
  funext s
  rfl

/-- The state is what is there. -/
theorem get_bind (f : σ → Action σ α) (s : σ) : (get >>= f) s = f s s := rfl

/-- A loop over a changed list. -/
theorem forEach_map (g : κ → β) (items : List κ) (f : β → Action σ Unit) :
    forEach (items.map g) f = forEach items fun c => f (g c) := by
  induction items with
  | nil => rfl
  | cons c items ih => rw [List.map_cons, forEach, forEach, ih]

/-- A loop over two lists is a loop over one and then the other. -/
theorem forEach_append (items items' : List β) (f : β → Action σ Unit) :
    forEach (items ++ items') f = forEach items f >>= fun _ => forEach items' f := by
  induction items with
  | nil => rfl
  | cons c items ih =>
    rw [List.cons_append, forEach, forEach, ih]
    funext s
    simp only [bind]
    obtain ⟨result, t, events⟩ := f c s
    cases result with
    | error e => rfl
    | ok u =>
      dsimp only
      obtain ⟨result, t, events'⟩ := forEach items f t
      cases result with
      | error e => rfl
      | ok u => simp only [List.append_assoc]

/-- Equal steps make equal loops. -/
theorem forEach_congr {f g : β → Action σ Unit} (h : ∀ b ∈ items, f b = g b) :
    forEach items f = forEach items g := by
  induction items with
  | nil => rfl
  | cons b items ih =>
    rw [forEach, forEach, h b (.head _), ih fun c hc => h c (.tail _ hc)]

/-! ## Runs -/

variable {post : α → σ → Prop} {broken : σ → Prop}

/-- What a bind does, by the outcome of its first part. -/
theorem bind_eq (a : Action σ α) (f : α → Action σ β) (s : σ) :
    (a >>= f) s = match (a s).result with
      | .error e => ⟨.error e, (a s).state, (a s).events⟩
      | .ok x => { f x (a s).state with events := (a s).events ++ (f x (a s).state).events } := by
  simp only [bind]
  obtain ⟨result, state, events⟩ := a s
  cases result <;> rfl

/-- A bind after a success. -/
theorem bind_of_ok {s t : σ} {x : α}
    (h : a s = { result := .ok x, state := t }) : (a >>= f) s = f x t := by
  rw [bind_eq, h]
  rfl

/-- A failure ends a bind. -/
theorem state_bind_of_error {e : Failure}
    (h : (a s).result = .error e) : ((a >>= f) s).state = (a s).state := by
  rw [bind_eq, h]

/-- A success goes on. -/
theorem state_bind_of_ok {x : α}
    (h : (a s).result = .ok x) : ((a >>= f) s).state = (f x (a s).state).state := by
  rw [bind_eq, h]

/-- A success goes on to a result. -/
theorem result_bind_of_ok {x : α}
    (h : (a s).result = .ok x) : ((a >>= f) s).result = (f x (a s).state).result := by
  rw [bind_eq, h]

/-- A bind meets what its second part meets then. -/
theorem meets_bind {M : α → σ → Prop}
    {post : β → σ → Prop} (ha : (a s).Meets M broken)
    (hf : ∀ x t, M x t → (f x t).Meets post broken) : ((a >>= f) s).Meets post broken := by
  rw [bind_eq]
  unfold Outcome.Meets at ha
  cases hr : (a s).result with
  | error e => rw [hr] at ha; exact ha
  | ok x => rw [hr] at ha; exact hf x _ ha

/-- An action on a part of the state, after the part was put back. -/
theorem meets_zoom {part : σ → τ} {replace : τ → σ → σ} {a : Action τ α}
    (h : (a (part s)).Meets (fun x t => post x (replace t s)) (fun t => broken (replace t s))) :
    (zoom part replace a s).Meets post broken := by
  unfold Outcome.Meets at h ⊢
  exact h

/-- A check of the state gives what it finds, and leaves the state. -/
theorem meets_examine {f : σ → Except Failure α} (h : broken s) :
    (examine f s).Meets (fun a t => s = t ∧ f s = .ok a) broken := by
  unfold Outcome.Meets examine
  cases f s with
  | ok a => exact ⟨rfl, rfl⟩
  | error e => exact h

/-! ## Invariants -/

/-- What holds before the action holds after it. -/
def Keeps (I : σ → Prop) (a : Action σ α) : Prop := ∀ s, I s → I (a s).state

variable {I : σ → Prop}

/-- What is kept holds in the end. -/
theorem Keeps.meets (h : Keeps I a) (hs : I s) : (a s).Meets (fun _ => I) I :=
  .of_state (h s hs)

/-- What is kept holds where the next action starts, or ends. -/
theorem Keeps.meets_bind {post : β → σ → Prop} (h : Keeps I a)
    (hs : I s) (hb : ∀ t, I t → broken t) (hf : ∀ x t, I t → (f x t).Meets post broken) :
    ((a >>= f) s).Meets post broken :=
  Action.meets_bind ((h.meets hs).mono_broken hb) hf

/-- What changes nothing keeps all. -/
theorem keeps_of_state (h : ∀ s, (a s).state = s) : Keeps I a :=
  fun s hs => (h s).symm ▸ hs

/-- A value keeps all. -/
theorem keeps_pure (x : α) : Keeps I (Pure.pure x : Action σ α) := keeps_of_state fun _ => rfl

/-- So does looking at the state. -/
theorem keeps_get : Keeps I (get : Action σ σ) := keeps_of_state fun _ => rfl

/-- So does looking at a part. -/
theorem keeps_gets (f : σ → α) : Keeps I (gets f) := keeps_of_state fun _ => rfl

/-- So does a check. -/
theorem keeps_examine (f : σ → Except Failure α) : Keeps I (examine f) :=
  keeps_of_state fun _ => rfl

/-- So does a report. -/
theorem keeps_report (e : Event) : Keeps I (report e : Action σ Unit) := keeps_of_state fun _ => rfl

/-- So does a result. -/
theorem keeps_ofExcept (r : Except Failure α) : Keeps I (ofExcept r : Action σ α) :=
  keeps_of_state fun _ => rfl

/-- A change may keep something. -/
theorem keeps_modify {f : σ → σ} (h : ∀ s, I s → I (f s)) : Keeps I (modify f) := h

/-- A bind keeps what both parts keep. -/
theorem Keeps.bind (ha : Keeps I a) (hf : ∀ x, Keeps I (f x)) :
    Keeps I (a >>= f) :=
  fun _ hs => (Action.meets_bind (ha.meets hs) fun x _ ht => (hf x).meets ht).state

/-- A loop keeps what its steps keep. -/
theorem Keeps.forEach {f : β → Action σ Unit} (h : ∀ b ∈ items, Keeps I (f b)) :
    Keeps I (forEach items f) := by
  induction items with
  | nil => exact keeps_pure ()
  | cons b items ih =>
    exact (h b (.head _)).bind fun _ => ih fun c hc => h c (.tail _ hc)

/-- A loop has what each of its steps keeps by succeeding. -/
theorem meets_forEach_of_meets {f : β → Action σ Unit} {broken : σ → Prop}
    (h : ∀ c ∈ items, ∀ s, I s → (f c s).Meets (fun _ => I) broken) (hs : I s) :
    (forEach items f s).Meets (fun _ => I) broken := by
  induction items generalizing s with
  | nil => exact hs
  | cons c items ih =>
    refine meets_bind (h c (.head _) s hs) fun _ t ht => ?_
    exact ih (fun d hd => h d (.tail _ hd)) ht

/-- A loop that succeeds has what one step establishes and the others keep. -/
theorem meets_forEach {f : β → Action σ Unit} {J : σ → Prop} {b : β} (hb : b ∈ items)
    (hI : ∀ c ∈ items, Keeps I (f c)) (hJ : ∀ c ∈ items, ∀ s, J s → (f c s).Meets (fun _ => J) I)
    (hstep : ∀ s, I s → (f b s).Meets (fun _ => J) I) (hs : I s) :
    (forEach items f s).Meets (fun _ => J) I := by
  induction items generalizing s with
  | nil => cases hb
  | cons c items ih =>
    have hrest : ∀ d ∈ items, ∀ s, J s → (f d s).Meets (fun _ => J) I :=
      fun d hd => hJ d (.tail _ hd)
    rcases List.mem_cons.1 hb with rfl | hb
    · exact meets_bind (hstep s hs) fun _ t ht => meets_forEach_of_meets hrest ht
    · refine meets_bind ((hI c (.head _)).meets hs) fun _ t ht => ?_
      exact ih hb (fun d hd => hI d (.tail _ hd)) hrest ht

/-- An action on the first value, and then on the others. -/
theorem meets_onValues_cons {f : κ → Action (α × τ) Unit} {post broken : List (κ × α) × τ → Prop}
    {k : κ} {a : α} {rest : List (κ × α)} {t : τ}
    (h : (f k (a, t)).Meets
      (fun _ s => (onValues f rest s.2).Meets (fun _ u => post ((k, s.1) :: u.1, u.2))
        fun u => broken ((k, s.1) :: u.1, u.2))
      fun s => broken ((k, s.1) :: rest, s.2)) :
    (onValues f ((k, a) :: rest) t).Meets (fun _ => post) broken := by
  rw [onValues]
  generalize f k (a, t) = o at h
  obtain ⟨result, ⟨a', t'⟩, events⟩ := o
  cases result with
  | error e => exact h
  | ok u => exact h

/-- An action on each value of a keyed list has what its steps keep by succeeding, or what the step
that failed leaves. A step sees one value, and the others as they are then. -/
theorem onValues_meets {J B : List (κ × α) → τ → Prop} {P : κ → Prop} {f : κ → Action (α × τ) Unit}
    (h : ∀ before k after, P k → ∀ s, J (before ++ (k, s.1) :: after) s.2 →
      (f k s).Meets (fun _ s => J (before ++ (k, s.1) :: after) s.2) fun s => B (before ++
        (k, s.1) :: after) s.2) :
    ∀ (entries before : List (κ × α)) {t : τ}, (∀ p ∈ entries, P p.1) → J (before ++ entries) t →
      (onValues f entries t).Meets (fun _ s => J (before ++ s.1) s.2) fun s => B (before ++ s.1) s.2
  | [], _, _, _, ht => ht
  | (k, a) :: rest, before, t, hP, ht => by
    refine meets_onValues_cons ((h before k rest (hP _ (.head _)) (a, t) ht).mono (fun _ s hs => ?_)
      fun _ hs => hs)
    have hrest := onValues_meets h rest (before ++ [(k, s.1)]) (t := s.2)
      (fun p hp => hP p (.tail _ hp))
      (by simpa using hs)
    simpa using hrest

/-- An action on each value keeps what its steps keep. -/
theorem onValues_keeps {J : List (κ × α) → τ → Prop} {P : κ → Prop} {f : κ → Action (α × τ) Unit}
    (h : ∀ before k after, P k → Keeps (fun s => J (before ++ (k, s.1) :: after) s.2) (f k))
    (entries before : List (κ × α)) {t : τ} (hP : ∀ p ∈ entries, P p.1)
    (ht : J (before ++ entries) t) :
    J (before ++ (onValues f entries t).state.1) (onValues f entries t).state.2 :=
  (onValues_meets (fun before k after hk _ => (h before k after hk).meets) entries before
    hP ht).state

/-- An action on each value leaves the keys. -/
theorem keys_onValues (f : κ → Action (α × τ) Unit) :
    ∀ (entries : List (κ × α)) (t : τ), (onValues f entries t).state.1.map Prod.fst =
      entries.map Prod.fst
  | [], _ => rfl
  | (k, a) :: rest, t => by
    rw [onValues]
    obtain ⟨result, ⟨a', t'⟩, events⟩ := f k (a, t)
    cases result with
    | error e => rfl
    | ok u => simp only [List.map_cons, keys_onValues f rest t']

/-- An action on each value that succeeds has what the step for one key establishes and the others
keep. -/
theorem meets_onValues {I J : List (κ × α) → τ → Prop} {f : κ → Action (α × τ) Unit} {k : κ}
    (hI : ∀ before k' after, k' ≠ k → Keeps (fun s => I (before ++ (k', s.1) :: after) s.2) (f k'))
    (hJ : ∀ before k' after, k' ≠ k → Keeps (fun s => J (before ++ (k', s.1) :: after) s.2) (f k'))
    (hstep : ∀ before after s, I (before ++ (k, s.1) :: after) s.2 →
      (f k s).Meets (fun _ s => J (before ++ (k, s.1) :: after) s.2) fun _ => True) :
    ∀ (entries before : List (κ × α)) {t : τ}, k ∈ entries.map Prod.fst →
    (entries.map Prod.fst).Nodup →
      I (before ++ entries) t → (onValues f entries t).Meets (fun _ s => J (before ++ s.1) s.2)
        fun _ => True
  | (k', a) :: rest, before, t, hk, hnodup, ht => by
    obtain ⟨hnew, hnodup⟩ := List.nodup_cons.1 hnodup
    by_cases hkey : k' = k
    · subst hkey
      refine meets_onValues_cons ((hstep before rest (a, t) ht).mono (fun _ s hs => ?_)
        fun _ _ => trivial)
      have hothers : ∀ p ∈ rest, p.1 ≠ k' := fun p hp heq => hnew (List.mem_map.2 ⟨p, hp, heq⟩)
      have hrest := onValues_meets (B := fun _ _ => True) (fun before k after hk s hs =>
        ((hJ before k after hk).meets hs).mono_broken fun _ _ => trivial) rest
        (before ++ [(k', s.1)]) (t := s.2) hothers
        (by simpa using hs)
      simpa using hrest
    · refine meets_onValues_cons (((hI before k' rest hkey).meets ht).mono (fun _ s hs => ?_)
        fun _ _ => trivial)
      have hk : k ∈ rest.map Prod.fst := (List.mem_cons.1 hk).resolve_left fun heq => hkey heq.symm
      have hrest := meets_onValues hI hJ hstep rest (before ++ [(k', s.1)]) (t := s.2) hk hnodup
        (by simpa using hs)
      simpa using hrest

/-- An action on each value keeps, of what lies around, what its steps keep. -/
theorem keeps_onValues {J : τ → Prop} {f : κ → Action (α × τ) Unit}
    (h : ∀ k, Keeps (fun s => J s.2) (f k)) (entries : List (κ × α)) {t : τ} (ht : J t) :
    J (onValues f entries t).state.2 :=
  onValues_keeps (J := fun _ => J) (P := fun _ => True) (fun _ k _ _ => h k) entries []
    (fun _ _ => trivial) ht

/-! ## Failures -/

/-- An action keeps a property, and fails in certain ways at most. -/
def Safe (I : σ → Prop) (may : Failure → Prop) (a : Action σ α) : Prop :=
  ∀ s, I s → I (a s).state ∧ ∀ e, (a s).result = .error e → may e

variable {may : Failure → Prop}

/-- What always succeeds is safe. -/
theorem Keeps.safe (h : Keeps I a) (hok : ∀ s, I s → ∃ x, (a s).result = .ok x) : Safe I may a := by
  intro s hs
  refine ⟨h s hs, fun e he => ?_⟩
  obtain ⟨x, hx⟩ := hok s hs
  cases hx.symm.trans he

/-- A bind is as safe as its parts. -/
theorem Safe.bind (ha : Safe I may a) (hf : ∀ x, Safe I may (f x)) :
    Safe I may (a >>= f) := by
  intro s hs
  rw [bind_eq]
  cases hr : (a s).result with
  | error e =>
    refine ⟨(ha s hs).1, ?_⟩
    rintro _ ⟨⟩
    exact (ha s hs).2 e hr
  | ok x => exact hf x _ (ha s hs).1

/-- A loop is as safe as its steps. -/
theorem Safe.forEach {f : β → Action σ Unit} (hf : ∀ b ∈ items, Safe I may (f b)) :
    Safe I may (forEach items f) := by
  induction items with
  | nil => exact (keeps_pure ()).safe fun _ _ => ⟨(), rfl⟩
  | cons b items ih =>
    exact (hf b (.head _)).bind fun _ => ih fun c hc => hf c (.tail _ hc)

end Action

end ComputeKernel
