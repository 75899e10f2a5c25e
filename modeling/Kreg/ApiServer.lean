import Mathlib.Data.List.AList
import Mathlib.Tactic.Common

namespace ApiServer
set_option autoImplicit true

structure ApiError where
  notFound : Bool
  text : String
deriving DecidableEq

/-- What a controller talks to: the objects, and which of its next calls will fail. -/
structure World (σ : Type) where
  store : σ
  faults : List Bool

/-- A computation against the server. The world survives an error: writes are not undone. -/
def Api (σ α : Type) := World σ → Except ApiError α × World σ

def Api.bind (x : Api σ α) (f : α → Api σ β) : Api σ β := fun w =>
  match x w with
  | (.error e, w) => (.error e, w)
  | (.ok a, w) => f a w

instance : Monad (Api σ) where
  pure a w := (.ok a, w)
  bind := Api.bind

theorem bind_of_ok {x : Api σ α} (h : x w = (.ok a, w')) (f : α → Api σ β) :
    (x >>= f) w = f a w' := by
  change Api.bind x f w = _
  rw [Api.bind, h]

theorem bind_of_error {x : Api σ α} (h : x w = (.error e, w')) (f : α → Api σ β) :
    (x >>= f) w = (.error e, w') := by
  change Api.bind x f w = _
  rw [Api.bind, h]

def fail (e : ApiError) : Api σ α := fun w => (.error e, w)

/-- Runs `x` and hands its outcome to the caller, as a Go call does. -/
def attempt (x : Api σ α) : Api σ (Except ApiError α) := fun w => (.ok (x w).1, (x w).2)

def ApiError.wrap (e : ApiError) (context : String) : ApiError :=
  { e with text := context ++ ": " ++ e.text }

def wrap (context : String) (x : Api σ α) : Api σ α := fun w =>
  match x w with
  | (.error e, w) => (.error (e.wrap context), w)
  | (.ok a, w) => (.ok a, w)

/-- One API call: it fails with nothing written if a fault is due, else the server runs it. -/
def call (f : σ → Except ApiError (α × σ)) : Api σ α := fun w =>
  match w.faults with
  | true :: faults => (.error ⟨false, "api call failed"⟩, ⟨w.store, faults⟩)
  | faults =>
    match f w.store with
    | .error e => (.error e, ⟨w.store, faults.tail⟩)
    | .ok (a, store) => (.ok a, ⟨store, faults.tail⟩)

def onPart (view : σ → τ) (update : σ → τ → σ) (x : Api τ α) : Api σ α := fun w =>
  ((x ⟨view w.store, w.faults⟩).1,
    ⟨update w.store (x ⟨view w.store, w.faults⟩).2.store, (x ⟨view w.store, w.faults⟩).2.faults⟩)

def each (f : α → Api σ Unit) : List α → Api σ Unit
  | [] => pure ()
  | a :: l => f a >>= fun _ => each f l

/-- `x` returns `a` and turns `s` into `s'` when no call fails. -/
def Returns (x : Api σ α) (s : σ) (a : α) (s' : σ) : Prop :=
  x ⟨s, []⟩ = (.ok a, ⟨s', []⟩)

/-- `Returns`, with the number of calls `x` makes: what is due later is left to what follows. -/
def Completes (x : Api σ α) (s : σ) (a : α) (s' : σ) : Prop :=
  ∃ n, ∀ faults : List Bool, (∀ due ∈ faults.take n, due = false) →
    x ⟨s, faults⟩ = (.ok a, ⟨s', faults.drop n⟩)

theorem Completes.returns {x : Api σ α} (h : Completes x s a s') : Returns x s a s' := by
  obtain ⟨n, h⟩ := h
  have hnil := h [] (by simp only [List.take_nil, List.not_mem_nil, false_implies, implies_true])
  rw [List.drop_nil] at hnil
  exact hnil

theorem Completes.pure (a : α) (s : σ) : Completes (pure a) s a s :=
  ⟨0, fun _ _ => rfl⟩

theorem Completes.bind {x : Api σ α} {f : α → Api σ β} (hx : Completes x s a s')
    (hf : Completes (f a) s' b s'') : Completes (x >>= f) s b s'' := by
  obtain ⟨n, hx⟩ := hx
  obtain ⟨m, hf⟩ := hf
  refine ⟨n + m, fun faults h => ?_⟩
  rw [List.take_add] at h
  change Api.bind x f ⟨s, faults⟩ = _
  rw [Api.bind, hx faults fun due hd => h due (List.mem_append_left _ hd)]
  change f a ⟨s', faults.drop n⟩ = _
  rw [hf _ fun due hd => h due (List.mem_append_right _ hd), List.drop_drop]

theorem Completes.wrap {x : Api σ α} (h : Completes x s a s') (context : String) :
    Completes (wrap context x) s a s' := by
  obtain ⟨n, h⟩ := h
  refine ⟨n, fun faults hd => ?_⟩
  rw [ApiServer.wrap, h faults hd]

theorem Completes.attempt {x : Api σ α} (h : Completes x s a s') :
    Completes (attempt x) s (.ok a) s' := by
  obtain ⟨n, h⟩ := h
  refine ⟨n, fun faults hd => ?_⟩
  rw [ApiServer.attempt, h faults hd]

theorem call_of_clear (f : σ → Except ApiError (α × σ)) {faults : List Bool}
    (h : ∀ due ∈ faults.take 1, due = false) :
    call f ⟨s, faults⟩ = match f s with
      | .error e => (.error e, ⟨s, faults.drop 1⟩)
      | .ok (a, s') => (.ok a, ⟨s', faults.drop 1⟩) := by
  cases faults with
  | nil => rfl
  | cons due faults =>
    have hd : due = false := h due (.head _)
    subst hd
    rfl

theorem Completes.call {f : σ → Except ApiError (α × σ)} (h : f s = .ok (a, s')) :
    Completes (call f) s a s' := by
  refine ⟨1, fun faults hd => ?_⟩
  rw [call_of_clear f hd, h]

theorem Completes.attempt_error {f : σ → Except ApiError (α × σ)} (h : f s = .error e) :
    Completes (ApiServer.attempt (ApiServer.call f)) s (.error e) s := by
  refine ⟨1, fun faults hd => ?_⟩
  rw [ApiServer.attempt, call_of_clear f hd, h]

/-- A read of the server: it returns what `find` finds, or else a `notFound` error, and writes
nothing. -/
structure Gets (f : σ → Except ApiError (α × σ)) (find : σ → Option α) : Prop where
  found : ∀ s a, find s = some a → f s = .ok (a, s)
  missing : ∀ s, find s = none → ∃ e : ApiError, e.notFound = true ∧ f s = .error e

theorem Completes.get {f : σ → Except ApiError (α × σ)} {find : σ → Option α} (hf : Gets f find)
    (h : find s = some a) : Completes (ApiServer.attempt (ApiServer.call f)) s (.ok a) s :=
  .attempt (.call (hf.found s a h))

theorem Completes.get_missing {f : σ → Except ApiError (α × σ)} {find : σ → Option α}
    (hf : Gets f find) (h : find s = none) :
    ∃ e, e.notFound = true ∧
      Completes (ApiServer.attempt (ApiServer.call f)) s (.error e) s := by
  obtain ⟨e, hn, he⟩ := hf.missing s h
  exact ⟨e, hn, .attempt_error he⟩

theorem Completes.each {f : α → Api σ Unit} {g : σ → α → σ} {P : σ → Prop} {l : List α}
    (h : ∀ a ∈ l, ∀ s, P s → Completes (f a) s () (g s a)) (hP : ∀ a ∈ l, ∀ s, P s → P (g s a))
    (hs : P s) : Completes (each f l) s () (l.foldl g s) := by
  induction l generalizing s with
  | nil => exact .pure _ _
  | cons a l ih =>
    apply Completes.bind (h a (.head _) s hs)
    exact ih (fun b hb => h b (.tail _ hb)) (fun b hb => hP b (.tail _ hb)) (hP a (.head _) s hs)

theorem Returns.functional {x : Api σ α} (h : Returns x s a s') (h' : Returns x s b t) :
    a = b ∧ s' = t := by
  have he := h.symm.trans h'
  simp only [Prod.mk.injEq, Except.ok.injEq, World.mk.injEq, and_true] at he
  exact he

def Meets (Q : α → σ → Prop) (E : ApiError → σ → Prop) : Except ApiError α × World σ → Prop
  | (.ok a, w) => Q a w.store
  | (.error e, w) => E e w.store

/-- Whichever calls fail, `x` run from `s` returns with `Q` or stops with `E`. -/
def Ends (x : Api σ α) (s : σ) (Q : α → σ → Prop) (E : ApiError → σ → Prop) : Prop :=
  ∀ faults, Meets Q E (x ⟨s, faults⟩)

section
variable {Q : α → σ → Prop} {E : ApiError → σ → Prop}

theorem Ends.of_ok {x : Api σ α} (h : Ends x s Q E) (hx : x ⟨s, faults⟩ = (.ok a, w)) :
    Q a w.store := by
  have hf := h faults
  rw [hx] at hf
  exact hf

theorem Ends.store {x : Api σ α} {I : σ → Prop} (h : Ends x s (fun _ => I) (fun _ => I))
    (faults : List Bool) : I (x ⟨s, faults⟩).2.store := by
  have hf := h faults
  cases hx : x ⟨s, faults⟩ with
  | mk o w =>
    rw [hx] at hf
    cases o with
    | error e => exact hf
    | ok a => exact hf

theorem Ends.mono {x : Api σ α} {Q' : α → σ → Prop} {E' : ApiError → σ → Prop}
    (h : Ends x s Q E) (hQ : ∀ a s', Q a s' → Q' a s') (hE : ∀ e s', E e s' → E' e s') :
    Ends x s Q' E' := by
  intro faults
  have hf := h faults
  cases hx : x ⟨s, faults⟩ with
  | mk o w =>
    rw [hx] at hf
    cases o with
    | error e => exact hE e _ hf
    | ok a => exact hQ a _ hf

theorem Ends.pure (h : Q a s) : Ends (pure a) s Q E :=
  fun _ => h

theorem Ends.fail (h : E e s) : Ends (fail e) s Q E :=
  fun _ => h

theorem Ends.bind {x : Api σ β} {f : β → Api σ α}
    (h : Ends x s (fun b s' => Ends (f b) s' Q E) E) : Ends (x >>= f) s Q E := by
  intro faults
  have hf := h faults
  change Meets Q E (Api.bind x f ⟨s, faults⟩)
  rw [Api.bind]
  cases hx : x ⟨s, faults⟩ with
  | mk o w =>
    rw [hx] at hf
    cases o with
    | error e => exact hf
    | ok b => exact hf w.faults

theorem Ends.wrap {x : Api σ α} (h : Ends x s Q fun e => E (e.wrap context)) :
    Ends (wrap context x) s Q E := by
  intro faults
  have hf := h faults
  rw [ApiServer.wrap]
  cases hx : x ⟨s, faults⟩ with
  | mk o w =>
    rw [hx] at hf
    cases o with
    | error e => exact hf
    | ok a => exact hf

theorem Ends.attempt {x : Api σ β} {Q : Except ApiError β → σ → Prop}
    (h : Ends x s (fun b => Q (.ok b)) (fun e => Q (.error e))) : Ends (attempt x) s Q E := by
  intro faults
  have hf := h faults
  rw [ApiServer.attempt]
  cases hx : x ⟨s, faults⟩ with
  | mk o w =>
    rw [hx] at hf
    cases o with
    | error e => exact hf
    | ok a => exact hf

theorem Ends.call {f : σ → Except ApiError (α × σ)}
    (hfault : E ⟨false, "api call failed"⟩ s) (herror : ∀ e, f s = .error e → E e s)
    (hok : ∀ a s', f s = .ok (a, s') → Q a s') : Ends (call f) s Q E := by
  intro faults
  by_cases hd : ∀ due ∈ faults.take 1, due = false
  · rw [call_of_clear f hd]
    cases h : f s with
    | error e => exact herror e h
    | ok r => exact hok _ _ h
  · cases faults with
    | nil => exact absurd (fun _ h => nomatch h) hd
    | cons due faults =>
      cases due with
      | true => exact hfault
      | false => exact absurd (fun _ h => List.mem_singleton.1 h) hd

theorem Ends.get {f : σ → Except ApiError (β × σ)} {find : σ → Option β}
    {Q : Except ApiError β → σ → Prop} (hf : Gets f find)
    (hfault : Q (.error ⟨false, "api call failed"⟩) s)
    (hmissing : find s = none → ∀ e : ApiError, e.notFound = true → Q (.error e) s)
    (hfound : ∀ b, find s = some b → Q (.ok b) s) :
    Ends (ApiServer.attempt (ApiServer.call f)) s Q E := by
  apply Ends.attempt
  cases hs : find s with
  | none =>
    obtain ⟨e, hn, he⟩ := hf.missing s hs
    apply Ends.call hfault
    · intro e' he'
      cases he.symm.trans he'
      exact hmissing hs e hn
    · intro b s' hb
      cases he.symm.trans hb
  | some b =>
    have hb := hf.found s b hs
    apply Ends.call hfault
    · intro e he
      cases hb.symm.trans he
    · intro b' s' hb'
      cases hb.symm.trans hb'
      exact hfound b hs

theorem Ends.onPart {view : σ → τ} {update : σ → τ → σ} {x : Api τ α}
    (h : Ends x (view s) (fun a t => Q a (update s t)) (fun e t => E e (update s t))) :
    Ends (onPart view update x) s Q E := by
  intro faults
  have hf := h faults
  rw [ApiServer.onPart]
  cases hx : x ⟨view s, faults⟩ with
  | mk o w =>
    rw [hx] at hf
    cases o with
    | error e => exact hf
    | ok a => exact hf

/-- The loop rule: `I` is about the rounds done and the store they have left. -/
theorem Ends.each {f : β → Api σ Unit} {I : List β → σ → Prop} {l : List β}
    (h : ∀ done b rest, l = done ++ b :: rest → ∀ s, I done s →
      Ends (f b) s (fun _ => I (done ++ [b])) E) (hs : I [] s) :
    Ends (each f l) s (fun _ => I l) E := by
  have hloop : ∀ rest done, l = done ++ rest → ∀ s, I done s →
      Ends (ApiServer.each f rest) s (fun _ => I l) E := by
    intro rest
    induction rest with
    | nil =>
      intro done hl s hs
      rw [List.append_nil] at hl
      subst hl
      exact .pure hs
    | cons b rest ih =>
      intro done hl s hs
      apply Ends.bind
      apply (h done b rest hl s hs).mono
      · intro _ s' hs'
        apply ih (done ++ [b]) _ s' hs'
        rw [List.append_assoc]
        exact hl
      · exact fun _ _ he => he
  exact hloop l [] rfl s hs

theorem Ends.each_inv {f : β → Api σ Unit} {I : σ → Prop} {l : List β}
    (h : ∀ b ∈ l, ∀ s, I s → Ends (f b) s (fun _ => I) E) (hs : I s) :
    Ends (ApiServer.each f l) s (fun _ => I) E := by
  apply Ends.each (I := fun _ => I) _ hs
  intro done b rest hl
  exact h b (hl ▸ List.mem_append_right _ (.head _))

theorem Ends.each_foldl {f : β → Api σ Unit} {g : σ → β → σ}
    (h : ∀ b s, Ends (f b) s (fun _ s' => s' = g s b) E) (l : List β) (s : σ) :
    Ends (ApiServer.each f l) s (fun _ s' => s' = l.foldl g s) E := by
  apply Ends.each (I := fun done s' => s' = done.foldl g s) _ rfl
  intro done b rest _ s' hs'
  subst hs'
  rw [List.foldl_append]
  exact h b _

end

/-- Some pattern of failing calls stops `x` with the store at `s'`. -/
def Stops (x : Api σ α) (s s' : σ) : Prop :=
  ∃ faults e w, x ⟨s, faults⟩ = (.error e, w) ∧ w.store = s'

theorem Stops.call (f : σ → Except ApiError (α × σ)) (s : σ) : Stops (call f) s s :=
  ⟨[true], _, _, rfl, rfl⟩

theorem Stops.attempt_call (f : σ → Except ApiError (β × σ)) {k : Except ApiError β → Api σ α}
    (hk : k (.error ⟨false, "api call failed"⟩) = fail e) (s : σ) :
    Stops (attempt (ApiServer.call f) >>= k) s s := by
  refine ⟨[true], e, ⟨s, []⟩, ?_, rfl⟩
  change k (.error ⟨false, "api call failed"⟩) ⟨s, []⟩ = _
  rw [hk, fail]

theorem Stops.wrap {x : Api σ α} (h : Stops x s s') (context : String) :
    Stops (wrap context x) s s' := by
  obtain ⟨faults, e, w, hx, hw⟩ := h
  refine ⟨faults, e.wrap context, w, ?_, hw⟩
  rw [ApiServer.wrap, hx]

theorem Stops.bind_left {x : Api σ α} (h : Stops x s s') (f : α → Api σ β) :
    Stops (x >>= f) s s' := by
  obtain ⟨faults, e, w, hx, hw⟩ := h
  refine ⟨faults, e, w, ?_, hw⟩
  change Api.bind x f ⟨s, faults⟩ = _
  rw [Api.bind, hx]

theorem Stops.bind {x : Api σ α} {f : α → Api σ β} (hx : Completes x s a s')
    (hf : Stops (f a) s' s'') : Stops (x >>= f) s s'' := by
  obtain ⟨n, hx⟩ := hx
  obtain ⟨faults, e, w, hf, hw⟩ := hf
  refine ⟨List.replicate n false ++ faults, e, w, ?_, hw⟩
  have hlen : (List.replicate n false).length = n := List.length_replicate
  have hclear : ∀ due ∈ (List.replicate n false ++ faults).take n, due = false := by
    rw [List.take_left' hlen]
    exact fun due hd => List.eq_of_mem_replicate hd
  change Api.bind x f _ = _
  rw [Api.bind, hx _ hclear, List.drop_left' hlen]
  exact hf

theorem api_bind_assoc (x : Api σ α) (f : α → Api σ β) (g : β → Api σ γ) :
    (x >>= f) >>= g = x >>= fun a => f a >>= g := by
  funext w
  change Api.bind (Api.bind x f) g w = Api.bind x (fun a => Api.bind (f a) g) w
  simp only [Api.bind]
  cases x w with
  | mk o w =>
    cases o with
    | error e => rfl
    | ok a => rfl

theorem each_append (f : α → Api σ Unit) (done rest : List α) :
    each f (done ++ rest) = each f done >>= fun _ => each f rest := by
  induction done with
  | nil => rfl
  | cons a done ih =>
    rw [List.cons_append, ApiServer.each, ih, ApiServer.each, api_bind_assoc]

/-- A loop can be cut off between any two of its rounds, and after its last one. -/
theorem Stops.each_bind {f : α → Api σ Unit} {k : Api σ β} (hf : ∀ a s, Stops (f a) s s)
    (hk : ∀ s, Stops k s s) {done : List α} (hdone : Completes (each f done) s () s')
    (rest : List α) : Stops (each f (done ++ rest) >>= fun _ => k) s s' := by
  rw [each_append, api_bind_assoc]
  apply Stops.bind hdone
  cases rest with
  | nil => exact .bind (.pure () s') (hk s')
  | cons a rest => exact .bind_left (.bind_left (hf a s') _) _

end ApiServer
