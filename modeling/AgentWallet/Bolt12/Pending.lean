import AgentWallet.Bolt12.Orchestrator
/-!
# Requests in flight

The bookkeeping of the orchestrator over all interleavings of calls, inbound
messages, sweeps and stops. `Tidy` is the invariant of the two maps and the
futures. It bounds the number of entries only where calls that have passed the
check of the cap and are not registered yet leave room for the next one
(`Spaced`): the check and the registration are two awaits apart.
-/

namespace AgentWallet.Bolt12.Orchestrator

open AgentWallet.Lib List Bool

variable {T : Type} [DecidableEq T] {settings : Settings} {s s' : Service T} {t u : T} {strict : Prop}

/-- The maps have the same keys, each entry is under the token of its call, a
result is a payload that arrived with the token of its call and is set once, and,
under the condition, entries and calls to be registered are within the cap. -/
structure Tidy (strict : Prop) (settings : Settings) (s : Service T) : Prop where
  keys : s.pending.map (·.1) = s.pendingCreatedAt.map (·.1)
  nodup : (s.pending.map (·.1)).Nodup
  tokens : ∀ x ∈ s.pending, s.correlation x.2 = some x.1
  results : ∀ t payload, s.future t = .result payload → ∃ c, s.correlation t = some c ∧ (c, payload) ∈ s.inbound
  completed : ∀ x ∈ s.completed, s.future x.1 = .result x.2
  once : (s.completed.map (·.1)).Nodup
  room : strict → 0 < settings.maxPendingRequests → s.pending.length + s.checked.length ≤ settings.maxPendingRequests

lemma tidy_initial (strict : Prop) (settings : Settings) : Tidy strict settings (Service.initial T) where
  keys := rfl
  nodup := .nil
  tokens := by simp [Service.initial]
  results := by simp [Service.initial]
  completed := by simp [Service.initial]
  once := .nil
  room _ h := Nat.zero_le _

/-- What no step of others changes for call `u`: they add no entry for it, leave
its token and its place between check and registration, and forget no message. -/
structure Later (u : T) (s s' : Service T) : Prop where
  pending : ∀ x ∈ s'.pending, x.2 = u → x ∈ s.pending
  correlation : s'.correlation u = s.correlation u
  checked : u ∈ s.checked → u ∈ s'.checked
  inbound : s.inbound ⊆ s'.inbound

lemma Later.refl (u : T) (s : Service T) : Later u s s := ⟨fun _ h _ => h, rfl, id, fun _ h => h⟩

lemma Later.trans {s'' : Service T} (h : Later u s s') (h' : Later u s' s'') : Later u s s'' where
  pending x hx hu := h.pending x (h'.pending x hx hu) hu
  correlation := h'.correlation.trans h.correlation
  checked := h'.checked ∘ h.checked
  inbound := List.Subset.trans h.inbound h'.inbound

/-! ## The steps of the service -/

/-- Only entries are removed, under both keys, and a future that is done stays as it is. -/
structure Reduces (s s' : Service T) : Prop where
  filter : ∃ p : Bytes → Bool, s'.pending = s.pending.filter (p ·.1) ∧
    s'.pendingCreatedAt = s.pendingCreatedAt.filter (p ·.1)
  future : ∀ t, s'.future t = s.future t ∨ ((s.future t).done = false ∧ ∀ payload, s'.future t ≠ .result payload)
  same : s'.correlation = s.correlation ∧ s'.checked = s.checked ∧ s'.inbound = s.inbound ∧ s'.completed = s.completed

lemma reduces_of_eq (hp : s'.pending = s.pending) (hc : s'.pendingCreatedAt = s.pendingCreatedAt)
    (hf : s'.future = s.future) (hs : s'.correlation = s.correlation ∧ s'.checked = s.checked ∧
      s'.inbound = s.inbound ∧ s'.completed = s.completed) : Reduces s s' where
  filter := ⟨fun _ => true, by simp [hp], by simp [hc]⟩
  future t := .inl (by rw [hf])
  same := hs

lemma Reduces.refl (s : Service T) : Reduces s s := reduces_of_eq rfl rfl rfl ⟨rfl, rfl, rfl, rfl⟩

section

variable (h : Reduces s s')
include h

lemma Reduces.trans {s'' : Service T} (h' : Reduces s' s'') : Reduces s s'' where
  filter := by
    obtain ⟨p, hp, hc⟩ := h.filter
    obtain ⟨q, hq, hd⟩ := h'.filter
    refine ⟨fun c => q c && p c, ?_, ?_⟩
    · rw [hq, hp, filter_filter]
    · rw [hd, hc, filter_filter]
  future t := by
    rcases h'.future t with h2 | ⟨hn, hno⟩
    · rcases h.future t with h1 | ⟨h1, h1'⟩
      · exact .inl (h2.trans h1)
      · exact .inr ⟨h1, by rwa [h2]⟩
    · rcases h.future t with h1 | ⟨h1, -⟩
      · exact .inr ⟨h1 ▸ hn, hno⟩
      · exact .inr ⟨h1, hno⟩
  same := ⟨h'.same.1.trans h.same.1, h'.same.2.1.trans h.same.2.1, h'.same.2.2.1.trans h.same.2.2.1,
    h'.same.2.2.2.trans h.same.2.2.2⟩

lemma Reduces.pending : s'.pending.Sublist s.pending := by
  obtain ⟨p, hp, -⟩ := h.filter
  rw [hp]
  exact filter_sublist

lemma Reduces.result {payload : Bytes} (ht : s'.future t = .result payload) :
    s.future t = .result payload := by
  rcases h.future t with h | ⟨-, h⟩
  · rw [← h, ht]
  · exact absurd ht (h payload)

lemma Reduces.later (u : T) : Later u s s' where
  pending _ hx _ := h.pending.subset hx
  correlation := by rw [h.same.1]
  checked := by rw [h.same.2.1]; exact id
  inbound := by rw [h.same.2.2.1]; exact List.Subset.refl _

lemma Reduces.tidy (hi : Tidy strict settings s) : Tidy strict settings s' where
  keys := by
    obtain ⟨p, hp, hc⟩ := h.filter
    have hm : ∀ {α : Type} (d : List (Bytes × α)), (d.filter (p ·.1)).map (·.1) = (d.map (·.1)).filter p := fun d =>
      filter_map.symm
    rw [hp, hc, hm, hm, hi.keys]
  nodup := hi.nodup.sublist (h.pending.map _)
  tokens x hx := by
    rw [h.same.1]
    exact hi.tokens x (h.pending.subset hx)
  results t payload ht := by
    rw [h.same.1, h.same.2.2.1]
    exact hi.results t payload (h.result ht)
  completed x hx := by
    rw [h.same.2.2.2] at hx
    have hd := hi.completed x hx
    rcases h.future x.1 with hf | ⟨hf, -⟩
    · rw [hf, hd]
    · rw [hd] at hf
      cases hf
  once := by
    rw [h.same.2.2.2]
    exact hi.once
  room hs hca := by
    rw [h.same.2.1]
    have := hi.room hs hca
    have := h.pending.length_le
    omega

end

lemma reduces_fail (s : Service T) (t : T) (e : ServiceExn) : Reduces s (s.fail t e) := by
  unfold Service.fail
  split
  · exact .refl s
  rename_i hd
  refine ⟨⟨fun _ => true, by simp, by simp⟩, fun u => ?_, rfl, rfl, rfl, rfl⟩
  by_cases hu : u = t
  · subst hu
    exact .inr ⟨by simpa using hd, by simp⟩
  · exact .inl (by simp [hu])

lemma reduces_drop (s : Service T) (c : Bytes) : Reduces s (s.drop c) :=
  ⟨⟨fun k => k ≠ c, rfl, rfl⟩, fun _ => .inl rfl, rfl, rfl, rfl, rfl⟩

lemma reduces_discard (s : Service T) (c : Bytes) : Reduces s (s.discard c) := by
  unfold Service.discard
  split
  · exact reduces_drop s c
  · exact (reduces_drop s c).trans (reduces_fail _ _ _)

lemma reduces_foldl {α : Type} {f : Service T → α → Service T} (hf : ∀ s a, Reduces s (f s a)) (l : List α)
    (s : Service T) : Reduces s (l.foldl f s) := by
  induction l generalizing s with
  | nil => exact .refl s
  | cons a l ih => exact (hf s a).trans (ih (f s a))

lemma reduces_sweep (settings : Settings) (s : Service T) : Reduces s (s.sweep settings) :=
  reduces_foldl reduces_discard _ s

lemma reduces_failInFlight (s : Service T) : Reduces s s.failInFlight := by
  have hf := reduces_foldl (fun s t => reduces_fail s t
    (.gatewayUnavailableError "Bolt12Service stopped before reply arrived")) (s.pending.map (·.2)) s
  refine hf.trans ⟨⟨fun _ => false, ?_, ?_⟩, fun _ => .inl rfl, rfl, rfl, rfl, rfl⟩ <;> simp [Service.failInFlight]

/-- The invariant and what calls rely on, for one inbound message. -/
lemma tidy_reply (hi : Tidy strict settings s) (context payload : Bytes) :
    Tidy strict settings (s.handleInvoiceReply settings context payload) ∧
      ∀ u, Later u s (s.handleInvoiceReply settings context payload) := by
  set s₁ : Service T := { s with inbound := (context, payload) :: s.inbound } with hs₁
  have hi₁ : Tidy strict settings s₁ := by
    refine ⟨hi.keys, hi.nodup, hi.tokens, fun t p ht => ?_, hi.completed, hi.once, hi.room⟩
    obtain ⟨c, hc, hm⟩ := hi.results t p ht
    exact ⟨c, hc, mem_cons_of_mem _ hm⟩
  have hla : ∀ u, Later u s s₁ := fun u => ⟨fun _ h _ => h, rfl, id, subset_cons_self _ _⟩
  unfold Service.handleInvoiceReply
  rw [← hs₁]
  dsimp only
  split
  · exact ⟨hi₁, hla⟩
  rename_i t hlo
  split
  · exact ⟨hi₁, hla⟩
  rename_i hd
  split
  · exact ⟨(reduces_fail _ _ _).tidy hi₁, fun u => (hla u).trans ((reduces_fail _ _ _).later u)⟩
  -- The entry is under the token of its call, and the message carries that token.
  have he : (context, t) ∈ s₁.pending := by
    obtain ⟨l, l', hl, -⟩ := lookup_eq_some_iff.1 hlo
    simp [hl]
  have hto : s₁.correlation t = some context := hi₁.tokens _ he
  have hn : ∀ x ∈ s₁.completed, x.1 ≠ t := by
    rintro x hx rfl
    rw [hi₁.completed x hx] at hd
    exact hd rfl
  refine ⟨⟨hi₁.keys, hi₁.nodup, hi₁.tokens, fun u p hu => ?_, fun x hx => ?_, ?_, hi₁.room⟩, fun u => ?_⟩
  · by_cases hut : u = t
    · subst hut
      obtain rfl : payload = p := by simpa using hu
      exact ⟨context, hto, by simp [hs₁]⟩
    · exact hi₁.results u p (by simpa [hut] using hu)
  · rcases mem_cons.1 hx with rfl | hx
    · simp
    · simpa [hn x hx] using hi₁.completed x hx
  · refine nodup_cons.2 ⟨fun hm => ?_, hi₁.once⟩
    obtain ⟨x, hx, hxt⟩ := mem_map.1 hm
    exact hn x hx hxt
  · exact ⟨(hla u).pending, (hla u).correlation, (hla u).checked, (hla u).inbound⟩

lemma env_tidy (hi : Tidy strict settings s) (h : Env settings s s') :
    Tidy strict settings s' ∧ ∀ u, Later u s s' := by
  cases h with
  | inbound context payload => exact tidy_reply hi context payload
  | sweep => exact ⟨(reduces_sweep settings s).tidy hi, (reduces_sweep settings s).later⟩
  | stopped => exact ⟨(reduces_failInFlight s).tidy hi, (reduces_failInFlight s).later⟩
  | start =>
    have h : Reduces s { s with running := true } := reduces_of_eq rfl rfl rfl ⟨rfl, rfl, rfl, rfl⟩
    exact ⟨h.tidy hi, h.later⟩
  | stop =>
    have h : Reduces s { s with running := false } := reduces_of_eq rfl rfl rfl ⟨rfl, rfl, rfl, rfl⟩
    exact ⟨h.tidy hi, h.later⟩
  | tick now _ =>
    have h : Reduces s { s with now } := reduces_of_eq rfl rfl rfl ⟨rfl, rfl, rfl, rfl⟩
    exact ⟨h.tidy hi, h.later⟩

/-! ## The steps of a call -/

/-- When a call may issue a command: it enters once, and it registers its own
token after it passed the check. -/
def Allowed (t : T) (c : Cmd) (s : Service T) : Prop :=
  match c with
  | .enter => s.correlation t = none
  | .register correlation => s.correlation t = some correlation ∧ t ∈ s.checked
  | _ => True

/-- A call only checks the cap when it is reached, or when there is room for the
call beside the entries and the calls that are still to be registered. -/
def Spaced (settings : Settings) (_ : T) (c : Cmd) (s : Service T) : Prop :=
  c = .enter → 0 < settings.maxPendingRequests → settings.maxPendingRequests ≤ s.pending.length ∨
    s.pending.length + s.checked.length < settings.maxPendingRequests

lemma tidy_erase (hi : Tidy strict settings s) (t : T) :
    Tidy strict settings { s with checked := s.checked.erase t } := by
  refine ⟨hi.keys, hi.nodup, hi.tokens, hi.results, hi.completed, hi.once, fun hs hc => ?_⟩
  have hle := hi.room hs hc
  have hsh := (erase_sublist (a := t) (l := s.checked)).length_le
  dsimp only
  omega

lemma later_erase (s : Service T) (hu : u ≠ t) : Later u s { s with checked := s.checked.erase t } :=
  ⟨fun _ h _ => h, rfl, (mem_erase_of_ne hu).2, List.Subset.refl _⟩

lemma tidy_enter {entry : Entry} (hi : Tidy strict settings s) (hp : s.correlation t = none)
    (hsp : strict → Spaced settings t .enter s) (he : entry.inFlight = s.pending.length)
    (ha : admitted settings entry = true) (c : Bytes) :
    Tidy strict settings
      { s with checked := t :: s.checked, correlation := Function.update s.correlation t (some c) } := by
  have hne : ∀ u c', s.correlation u = some c' → u ≠ t := by
    rintro u c' hu rfl
    rw [hp] at hu
    cases hu
  refine ⟨hi.keys, hi.nodup, fun x hx => ?_, fun u p hu => ?_, hi.completed, hi.once, fun hs hc => ?_⟩
  · have ht := hi.tokens x hx
    simpa [hne _ _ ht] using ht
  · obtain ⟨c', hc', hm⟩ := hi.results u p hu
    exact ⟨c', by simpa [hne _ _ hc'] using hc', hm⟩
  have hf : ¬ settings.maxPendingRequests ≤ s.pending.length := by
    simp only [admitted, full, he, and_eq_true, not_eq_true', and_eq_false_iff,
      decide_eq_false_iff_not] at ha
    omega
  rcases hsp hs rfl hc with h | h
  · exact absurd h hf
  · simp only [length_cons]
    omega

lemma tidy_register (hi : Tidy strict settings s) {c : Bytes} (ht : s.correlation t = some c) (hm : t ∈ s.checked)
    (hn : c ∉ s.pending.map (·.1)) :
    Tidy strict settings { s with pending := s.pending ++ [(c, t)],
                                  pendingCreatedAt := s.pendingCreatedAt ++ [(c, s.now)],
                                  checked := s.checked.erase t } := by
  refine ⟨?_, ?_, fun x hx => ?_, hi.results, hi.completed, hi.once, fun hs hc => ?_⟩
  · simp [hi.keys]
  · rw [map_append]
    exact nodup_append.2 ⟨hi.nodup, by simp, fun a ha b hb => by simp at hb; rintro rfl; exact hn (hb ▸ ha)⟩
  · rcases mem_append.1 hx with hx | hx
    · exact hi.tokens x hx
    · rw [mem_singleton.1 hx]
      exact ht
  · have hle := hi.room hs hc
    have hp := length_pos_of_mem hm
    simp only [length_append, length_cons, length_nil, length_erase_of_mem hm]
    omega

lemma reduces_cancel (h : s.future t = .pending) :
    Reduces s { s with future := Function.update s.future t .cancelled } := by
  refine ⟨⟨fun _ => true, by simp, by simp⟩, fun u => ?_, rfl, rfl, rfl, rfl⟩
  by_cases hu : u = t
  · subst hu
    exact .inr ⟨by rw [h]; rfl, by simp⟩
  · exact .inl (by simp [hu])

lemma exec_tidy {c : Cmd} {r : Except ServiceExn (Reply c)} (hi : Tidy strict settings s) (hp : Allowed t c s)
    (hs : strict → Spaced settings t c s) (hx : Exec settings t s c r s') :
    Tidy strict settings s' ∧ ∀ u, u ≠ t → Later u s s' := by
  cases hx with
  | enter plan correlation entry he =>
    split
    · rename_i ha
      refine ⟨tidy_enter hi hp hs (by rw [he]) ha correlation, fun u hu => ⟨fun _ h _ => h, ?_, ?_, ?_⟩⟩
      · simp [hu]
      · exact mem_cons_of_mem _
      · exact List.Subset.refl _
    · exact ⟨hi, fun u _ => .refl u s⟩
  | noBlindedPath | noInvreq | collision correlation h => exact ⟨tidy_erase hi t, fun u hu => later_erase s hu⟩
  | register correlation h =>
    refine ⟨tidy_register hi hp.1 hp.2 h, fun u hu => ⟨fun x hx hxu => ?_, rfl, (mem_erase_of_ne hu).2, ?_⟩⟩
    · rcases mem_append.1 hx with hx | hx
      · exact hx
      · rw [mem_singleton.1 hx] at hxu
        exact absurd hxu.symm hu
    · exact List.Subset.refl _
  | timeout _ h | cancelled _ h => exact ⟨(reduces_cancel h).tidy hi, fun u _ => (reduces_cancel h).later u⟩
  | drop correlation => exact ⟨(reduces_drop s _).tidy hi, fun u _ => (reduces_drop s _).later u⟩
  | _ => exact ⟨hi, fun u _ => .refl u s⟩

variable (T settings strict) in
/-- The runs in which, under the condition, calls are spaced. -/
def bookkeeping : Protocol ((machine (T := T) settings).when fun t c s => strict → Spaced settings t c s) where
  inv := Tidy strict settings
  pre := Allowed
  rely := Later
  exec hi hp hx := exec_tidy hi hp hx.1 hx.2
  env hi h := env_tidy hi h

/-! ## A call -/

def Absent (t : T) (s : Service T) : Prop := ∀ x ∈ s.pending, x.2 ≠ t

/-- The call has no entry, and a payload it returns arrived with its token. -/
def Ended (t : T) (r : Except ServiceExn Bytes) (s : Service T) : Prop :=
  Absent t s ∧ ∀ payload, r = .ok payload → ∃ c, s.correlation t = some c ∧ (c, payload) ∈ s.inbound

lemma stable_absent : (bookkeeping T settings strict).Stable t (Absent t) := by
  intro s s' _ _ hr h x hx hxt
  exact h x (hr.pending x hx hxt) hxt

lemma stable_correlation (v : Option Bytes) :
    (bookkeeping T settings strict).Stable t fun s => s.correlation t = v := by
  intro s s' _ _ hr h
  rw [hr.correlation, h]

lemma absent_of_none (hi : Tidy strict settings s) (h : s.correlation t = none) : Absent t s := by
  rintro x hx rfl
  rw [hi.tokens x hx] at h
  cases h

def Checked (t : T) (c : Bytes) (s : Service T) : Prop := s.correlation t = some c ∧ t ∈ s.checked ∧ Absent t s

lemma stable_checkedAs (c : Bytes) : (bookkeeping T settings strict).Stable t (Checked t c) :=
  (stable_correlation _).and (.and (fun _ _ _ _ hr h => hr.checked h) stable_absent)

/-- The answer to a registered call: a payload it got arrived with its token. -/
def Answered (t : T) (c : Bytes) (r : Except ServiceExn Bytes) (s : Service T) : Prop :=
  s.correlation t = some c ∧ ∀ payload, r = .ok payload → (c, payload) ∈ s.inbound

lemma stable_answered (c : Bytes) (r : Except ServiceExn Bytes) :
    (bookkeeping T settings strict).Stable t (Answered t c r) := by
  intro s s' _ _ hr h
  exact ⟨hr.correlation.trans h.1, fun payload hp => hr.inbound (h.2 payload hp)⟩

/-- `A` after a value, `B` after an exception. -/
def Either {α : Type} (A : α → Service T → Prop) (B : Service T → Prop) : Except ServiceExn α → Service T → Prop
  | .ok a => A a
  | .error _ => B

lemma stable_either {α : Type} {A : α → Service T → Prop} {B : Service T → Prop}
    (hA : ∀ a, (bookkeeping T settings strict).Stable t (A a)) (hB : (bookkeeping T settings strict).Stable t B)
    (r : Except ServiceExn α) : (bookkeeping T settings strict).Stable t (Either A B r) := by
  cases r with
  | ok a => exact hA a
  | error e => exact hB

/-- After the first step: the call is past the check or over. -/
def Entered (settings : Settings) (t : T) (entry : Entry) (s : Service T) : Prop :=
  Absent t s ∧ (admitted settings entry = true → Checked t entry.correlation s)

lemma enter_safe : (bookkeeping T settings strict).Safe t (Returns (Entered settings t)) (call .enter)
    fun s => s.correlation t = none := by
  refine .answered (fun entry => ?_) fun s r s' hi ha hx => ⟨ha, ?_⟩
  · refine stable_absent.and fun s s' hi hi' hr h had => ?_
    exact stable_checkedAs _ s s' hi hi' hr (h had)
  have hab := absent_of_none hi ha
  cases hx.2 with
  | enter plan correlation entry he =>
    refine ⟨entry, rfl, fun _ => ?_⟩
    split
    · have hc : entry.correlation = correlation := by rw [he]
      exact ⟨hab, fun _ => ⟨by simp [hc], mem_cons_self, hab⟩⟩
    · rename_i had
      exact ⟨hab, fun h => absurd h had⟩

lemma createBlindedPath_safe (plan : SendPlan) (c : Bytes) :
    (bookkeeping T settings strict).Safe t (Either (fun _ => Checked t c) (Absent t)) (call (.createBlindedPath plan c))
      (Checked t c) := by
  refine .call (stable_either (fun _ => stable_checkedAs c) stable_absent) fun s r s' _ ha hx =>
    ⟨trivial, ?_⟩
  cases hx.2 with
  | createBlindedPath => exact fun _ => ha
  | noBlindedPath => exact fun _ => ha.2.2

lemma buildInvreq_safe (request : Request) (replyPath c : Bytes) :
    (bookkeeping T settings strict).Safe t (Either (fun _ => Checked t c) (Absent t))
      (call (.buildInvreq request replyPath)) (Checked t c) := by
  refine .call (stable_either (fun _ => stable_checkedAs c) stable_absent) fun s r s' _ ha hx =>
    ⟨trivial, ?_⟩
  cases hx.2 with
  | buildInvreq => exact fun _ => ha
  | noInvreq => exact fun _ => ha.2.2

lemma register_safe (c : Bytes) :
    (bookkeeping T settings strict).Safe t
      (Returns fun registered s => s.correlation t = some c ∧ (registered = false → Absent t s)) (call (.register c))
      (Checked t c) := by
  refine .answered (fun registered => ?_) fun s r s' _ ha hx => ⟨⟨ha.1, ha.2.1⟩, ?_⟩
  · refine (stable_correlation _).and fun s s' hi hi' hr h hf => ?_
    exact stable_absent s s' hi hi' hr (h hf)
  · cases hx.2 with
    | collision => exact ⟨false, rfl, fun _ => ⟨ha.1, fun _ => ha.2.2⟩⟩
    | register => exact ⟨true, rfl, fun _ => ⟨ha.1, fun h => by cases h⟩⟩

lemma send_safe (payload : Bytes) (plan : SendPlan) (replyPath c : Bytes) :
    (bookkeeping T settings strict).Safe t (fun _ s => s.correlation t = some c)
      (call (.sendOnionMessage payload plan replyPath)) fun s => s.correlation t = some c := by
  refine .call (fun _ => stable_correlation _) fun s r s' _ ha hx => ⟨trivial, ?_⟩
  cases hx.2 with
  | send => exact fun _ => ha

lemma waitFor_safe (timeout : FloatText) (c : Bytes) :
    (bookkeeping T settings strict).Safe t (Answered t c) (call (.waitFor timeout))
      fun s => s.correlation t = some c := by
  refine .call (stable_answered c) fun s r s' hi ha hx => ⟨trivial, ?_⟩
  cases hx.2 with
  | replied _ payload h =>
    refine fun _ => ⟨ha, fun p hp => ?_⟩
    obtain rfl := Except.ok.inj hp
    obtain ⟨c', hc', hm⟩ := hi.results t payload h
    obtain rfl : c = c' := Option.some.inj (ha.symm.trans hc')
    exact hm
  | _ => exact fun _ => ⟨ha, by simp⟩

/-- The entry of a call is under its token, so that dropping the token leaves none. -/
lemma drop_safe (c : Bytes) (r : Except ServiceExn Bytes) :
    (bookkeeping T settings strict).Safe t (Returns fun _ s => Ended t r s) (call (.drop c)) (Answered t c r) := by
  refine .answered (fun _ => ?_) fun s r' s' hi ha hx => ⟨trivial, ?_⟩
  · intro s s' hi hi' hr h
    refine ⟨stable_absent s s' hi hi' hr h.1, fun payload hp => ?_⟩
    obtain ⟨c, hc, hm⟩ := h.2 payload hp
    exact ⟨c, hr.correlation.trans hc, hr.inbound hm⟩
  · cases hx.2 with
    | drop =>
      refine ⟨(), rfl, fun _ => ⟨fun x hx hxt => ?_, fun payload hp => ⟨c, ha.1, ha.2 payload hp⟩⟩⟩
      obtain ⟨hm, hne⟩ := mem_filter.1 hx
      have ht := hi.tokens x hm
      rw [hxt, ha.1] at ht
      simp [Option.some.inj ht] at hne

/-- Whatever happens in between, a call that is over has no entry, and what it
returns arrived with its token. -/
lemma requestInvoice_safe (request : Request) :
    (bookkeeping T settings strict).Safe t (Ended t) (requestInvoice settings request)
      fun s => s.correlation t = none := by
  refine enter_safe.seq fun entry => ?_
  have ended : ∀ e, (bookkeeping T settings strict).Safe t (Ended t) (.raise e) (Entered settings t entry) :=
    fun e s _ h => ⟨h.1, by simp⟩
  split
  · exact ended _
  split
  · exact ended _
  rename_i hr hf
  cases hp : entry.plan with
  | none => exact ended _
  | some plan =>
    have ha : admitted settings entry = true := by
      simp only [not_eq_true, not_eq_false'] at hr hf
      simp [admitted, hp, hr, hf]
    have hpa : (bookkeeping T settings strict).Safe t (Either (fun _ => Checked t entry.correlation) (Absent t))
        (call (.createBlindedPath plan entry.correlation)) (Entered settings t entry) :=
      (createBlindedPath_safe plan entry.correlation).weaken fun s _ h => h.2 ha
    refine hpa.bind (fun replyPath => ?_) fun e s _ h => ⟨h, by simp⟩
    refine (buildInvreq_safe request replyPath entry.correlation).bind (fun invreqBytes => ?_) fun e s _ h =>
      ⟨h, by simp⟩
    refine (register_safe entry.correlation).seq fun registered => ?_
    split
    · rename_i hre
      exact fun s _ h => ⟨h.2 (by simpa using hre), by simp⟩
    have hb : (bookkeeping T settings strict).Safe t (Answered t entry.correlation)
        ((call (.sendOnionMessage invreqBytes plan replyPath)).bind fun _ =>
          call (.waitFor (request.timeoutSeconds.getD settings.requestTimeout)))
        fun s => s.correlation t = some entry.correlation :=
      (send_safe invreqBytes plan replyPath entry.correlation).bind (fun _ => waitFor_safe _ _)
        fun e s _ h => ⟨h, by simp⟩
    exact (hb.tryFinally (drop_safe entry.correlation)).weaken fun s _ h => h.1

/-! ## Every run -/

def calls (settings : Settings) (requests : T → Request) : Config T Cmd Reply ServiceExn Bytes (Service T) :=
  ⟨.initial T, fun t => requestInvoice settings (requests t)⟩

/-- The two maps have the same keys, every entry is the one of a call that has
drawn its token and is still running, a call returns a payload that arrived with
its own token, and no future is given a result twice. -/
structure Matched (cfg : Config T Cmd Reply ServiceExn Bytes (Service T)) : Prop where
  keys : cfg.shared.pending.map (·.1) = cfg.shared.pendingCreatedAt.map (·.1)
  running : ∀ c t, (c, t) ∈ cfg.shared.pending → cfg.shared.correlation t = some c ∧ ∃ cmd k, cfg.tasks t = .await cmd k
  own : ∀ t payload, cfg.tasks t = .ret payload →
    ∃ c, cfg.shared.correlation t = some c ∧ (c, payload) ∈ cfg.shared.inbound
  once : (cfg.shared.completed.map (·.1)).Nodup

def WithinCap (settings : Settings) (cfg : Config T Cmd Reply ServiceExn Bytes (Service T)) : Prop :=
  0 < settings.maxPendingRequests → cfg.shared.pending.length ≤ settings.maxPendingRequests

variable {requests : T → Request} {cfg : Config T Cmd Reply ServiceExn Bytes (Service T)}

lemma holds_calls
    (h : ((machine settings).when fun t c s => strict → Spaced settings t c s).Reach (calls settings requests) cfg) :
    (bookkeeping T settings strict).Holds Ended cfg := by
  have hs : (bookkeeping T settings strict).Holds Ended (calls settings requests) :=
    ⟨tidy_initial strict settings, fun t => ⟨_, stable_correlation none, rfl, requestInvoice_safe (requests t)⟩⟩
  exact hs.reach h

lemma matched_of_holds (h : (bookkeeping T settings strict).Holds Ended cfg) : Matched cfg := by
  refine ⟨h.1.keys, fun c t hm => ⟨h.1.tokens _ hm, ?_⟩, fun t payload ht => (h.ret ht).2 payload rfl, h.1.once⟩
  -- A call that is over has no entry.
  cases ht : cfg.tasks t with
  | ret payload => exact absurd rfl ((h.ret ht).1 _ hm)
  | raise e => exact absurd rfl ((h.raise ht).1 _ hm)
  | await cmd k => exact ⟨cmd, k, rfl⟩

/-- If, besides, no call checks the cap while the entries and the calls still to be
registered fill it, the entries are within the cap in every state reached. -/
theorem bookkeeping_of_spaced (settings : Settings) (requests : T → Request)
    (cfg : Config T Cmd Reply ServiceExn Bytes (Service T))
    (h : ((machine settings).when (Spaced settings)).Reach (calls settings requests) cfg) :
    Matched cfg ∧ WithinCap settings cfg := by
  have hru : ((machine settings).when fun t c s => True → Spaced settings t c s).Reach (calls settings requests)
      cfg := by
    apply h.mono
    · exact fun _ _ _ _ _ hx => ⟨fun _ => hx.1, hx.2⟩
    · exact fun _ _ he => he
  have hh := holds_calls hru
  refine ⟨matched_of_holds hh, fun hc => ?_⟩
  have hr := hh.1.room trivial hc
  omega

/-! A cap of one. -/

def oneAtATime : Settings where
  maxPendingRequests := 1
  requestTimeout := ⟨"30.0".toList, rfl, by decide⟩
  orphanTtl := 60

def directPlan : SendPlan := ⟨some [], none, [[]], 0⟩

theorem bookkeeping_of_one_call : ∃ cfg : Config Bool Cmd Reply ServiceExn Bytes (Service Bool),
    cfg.shared.pending = [([1], true)] ∧ Matched cfg ∧ WithinCap oneAtATime cfg := by
  have h0 : ((machine oneAtATime).when (Spaced oneAtATime)).Reach (calls oneAtATime fun _ : Bool => {})
      (calls oneAtATime fun _ => {}) := .refl
  have h1 := h0.run true rfl (.ok ⟨true, 0, some directPlan, [1]⟩)
    ⟨fun _ _ => .inr (by decide), .enter (some directPlan) [1] _ rfl⟩
  have h2 := h1.run true rfl (.ok []) ⟨nofun, .createBlindedPath directPlan [1] []⟩
  have h3 := h2.run true rfl (.ok []) ⟨nofun, .buildInvreq {} [] []⟩
  have h4 := h3.run true rfl (.ok true) ⟨nofun, .register [1] (by decide)⟩
  exact ⟨_, rfl, bookkeeping_of_spaced oneAtATime _ _ h4⟩

/-- Both calls check the cap before one of them is registered. -/
theorem two_calls_over_cap : ∃ cfg : Config Bool Cmd Reply ServiceExn Bytes (Service Bool),
    (machine oneAtATime).Reach (calls oneAtATime fun _ => {}) cfg ∧ cfg.shared.pending.length = 2 ∧
      ¬ WithinCap oneAtATime cfg := by
  have h0 : (machine oneAtATime).Reach (calls oneAtATime fun _ : Bool => {}) (calls oneAtATime fun _ => {}) := .refl
  have h1 := h0.run true rfl (.ok ⟨true, 0, some directPlan, [1]⟩) (.enter (some directPlan) [1] _ rfl)
  have h2 := h1.run false rfl (.ok ⟨true, 0, some directPlan, [2]⟩) (.enter (some directPlan) [2] _ rfl)
  have h3 := h2.run true rfl (.ok []) (.createBlindedPath directPlan [1] [])
  have h4 := h3.run false rfl (.ok []) (.createBlindedPath directPlan [2] [])
  have h5 := h4.run true rfl (.ok []) (.buildInvreq {} [] [])
  have h6 := h5.run false rfl (.ok []) (.buildInvreq {} [] [])
  have h7 := h6.run true rfl (.ok true) (.register [1] (by decide))
  have h8 := h7.run false rfl (.ok true) (.register [2] (by decide))
  exact ⟨_, h8, rfl, fun h => absurd (h (by decide)) (by decide)⟩

end AgentWallet.Bolt12.Orchestrator
