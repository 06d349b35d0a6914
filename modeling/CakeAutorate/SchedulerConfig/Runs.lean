/-
# What the reader of the policy answers

Runs of the reader among the other processes. The invariant is about the cache: its identities are
ones that the files have had, and if the files still have them, the answer in the cache is the one
that `uci` gives now.
-/

import CakeAutorate.SchedulerConfig.Reader

namespace CakeAutorate.SchedulerConfig

open Wire Syscall List World Bool Function Except Foreign

section Runs

variable {Config Change Instance : Type} {uci : Uci Config Change}
  {w w' : World Config Change Instance}

def machine (uci : Uci Config Change) :
    System (World Config Change Instance) (Call Instance) Reply where
  step c w r w' := perform uci c w = (r, w') ∨ Refused c w r w'
  torn _ _ _ := False
  env := Foreign uci

/-- **The moment of `uci show`.**  When neither query found a change, the package has nothing
staged and is committed as at a moment of this read at which nothing was staged. -/
def Timely (w : World Config Change Instance) : Prop :=
  w.replies = [true, true] → (w.policy .cakeAutorate).staged = [] ∧
    ∃ m ∈ w.since, Clean m ∧ (m .cakeAutorate).committed = (w.policy .cakeAutorate).committed

/-- The steps of a run: all of them, or those of runs in which every `uci show` is timely. -/
def Allowed (timely : Bool) (c : Call Instance) (w : World Config Change Instance) : Prop :=
  timely = true → c = .uciShow → Timely w

/-- The states in which a read may begin. -/
inductive Reached (uci : Uci Config Change)
    (parseInstance : Text → RawSection → Except String Instance) (timely : Bool) :
    World Config Change Instance → Prop where
  | start (w : World Config Change Instance) : w.last = none → (∀ f, w.identity f ∈ w.had f) →
      Reached uci parseInstance timely w
  | foreign {w w' : World Config Change Instance} : Reached uci parseInstance timely w →
      Foreign uci w w' → Reached uci parseInstance timely w'
  | read {w w' : World Config Change Instance}
      {r : Except String (Bool × SchedulerConfigSnapshot Instance)} :
      Reached uci parseInstance timely w →
      Exec ((machine uci).restrict (Allowed timely)) (read parseInstance) w.started
        (.returned r w') → Reached uci parseInstance timely w'

/-- What a step of somebody else does to the files and leaves to the reader. -/
structure Moved (w w' : World Config Change Instance) : Prop where
  last : w'.last = w.last
  origin : w'.origin = w.origin
  replies : w'.replies = w.replies
  since : w'.since = w.since ++ [w'.policy]
  had : ∀ f, ∀ i ∈ w.had f, i ∈ w'.had f
  identity : (∀ f, w.identity f ∈ w.had f) → ∀ f, w'.identity f ∈ w'.had f
  another : ∃ f ∈ policyFiles, w'.identity f ∉ w.had f

theorem had_touch (w : World Config Change Instance) (f : PolicyFile) (i : FileIdentity)
    (g : PolicyFile) : ∀ j ∈ w.had g, j ∈ (w.touch f i).had g := by
  intro j hj
  by_cases hg : g = f
  · subst hg
    simp only [touch, update_self]
    exact mem_cons_of_mem _ hj
  · simp only [touch, update_of_ne hg]
    exact hj

theorem identity_touch (hw : ∀ g, w.identity g ∈ w.had g) (f : PolicyFile) (i : FileIdentity)
    (g : PolicyFile) : (w.touch f i).identity g ∈ (w.touch f i).had g := by
  by_cases hg : g = f
  · subst hg
    simp only [touch, update_self]
    exact mem_cons_self
  · simp only [touch, update_of_ne hg]
    exact hw g

theorem mem_policyFiles (f : PolicyFile) : f ∈ policyFiles := by
  cases f with
  | config p => cases p <;> decide
  | delta p => cases p <;> decide

theorem Foreign.moved (h : Foreign uci w w') : Moved w w' := by
  cases h with
  | set p change i hi =>
    refine ⟨rfl, rfl, rfl, rfl, had_touch _ _ i, fun hw => identity_touch hw _ i,
      _, mem_policyFiles (.delta p), ?_⟩
    simp only [touch, update_self]
    exact hi
  | commit p i j hi hj =>
    refine ⟨rfl, rfl, rfl, rfl,
      fun f x hx => had_touch _ _ j f x (had_touch _ (.config p) i f x hx),
      fun hw => identity_touch (identity_touch hw _ i) _ j, _, mem_policyFiles (.delta p), ?_⟩
    simp only [touch, update_self]
    exact hj
  | revert p kept i _ hi =>
    refine ⟨rfl, rfl, rfl, rfl, had_touch _ _ i, fun hw => identity_touch hw _ i,
      _, mem_policyFiles (.delta p), ?_⟩
    simp only [touch, update_self]
    exact hi

def Noted (inputs : List (Option FileIdentity)) (w : World Config Change Instance) : Prop :=
  List.Forall₂ (fun f i => i ∈ w.had f) policyFiles inputs

/-- **A file that somebody writes does not come back** to an identity that was noted. -/
theorem Moved.inputs_ne (h : Moved w w') {inputs : List (Option FileIdentity)}
    (hnoted : Noted inputs w) : w'.inputs ≠ inputs := by
  intro heq
  obtain ⟨f, hf, hne⟩ := h.another
  rw [← heq] at hnoted
  have hall : ∀ f ∈ policyFiles, w'.identity f ∈ w.had f := by
    rw [Noted, World.inputs, forall₂_map_right_iff, forall₂_same] at hnoted
    exact hnoted
  exact hne (hall f hf)

theorem Moved.noted (h : Moved w w') {inputs : List (Option FileIdentity)}
    (hnoted : Noted inputs w) : Noted inputs w' :=
  hnoted.imp fun f i hi => h.had f i hi

def isCommitted (uci : Uci Config Change) (m : Policy Config Change) : Bool :=
  policyPackages.all fun p => blank (uci.changes (m p))

variable (uci) (parseInstance : Text → RawSection → Except String Instance)

/-- What `uci` answers while nobody moves. -/
def direct (m : Policy Config Change) : Except String (Bool × SchedulerConfigSnapshot Instance) :=
  (parseScheduledInstances parseInstance (uci.show_ (m .cakeAutorate))).map fun snapshot =>
    (isCommitted uci m, snapshot)

def Backed (moments : List (Policy Config Change)) (snapshot : SchedulerConfigSnapshot Instance) :
    Prop :=
  ∃ m ∈ moments, Clean m ∧
    parseScheduledInstances parseInstance (uci.printed (m .cakeAutorate).committed) = .ok snapshot

/-- What is known about an entry of the cache. -/
structure Cached (timely : Bool) (l : Last Instance) (w : World Config Change Instance) : Prop where
  noted : Noted l.inputs w
  fresh : w.inputs = l.inputs → direct uci parseInstance w.policy = .ok (l.committed, l.snapshot)
  backed : timely = true → l.committed = true → Backed uci parseInstance w.origin l.snapshot

/-- **The invariant of the reader.** -/
structure Kept (timely : Bool) (w : World Config Change Instance) : Prop where
  had : ∀ f, w.identity f ∈ w.had f
  cached : ∀ l, w.last = some l → Cached uci parseInstance timely l w

variable {uci parseInstance} {timely : Bool}

theorem Moved.cached (h : Moved w w') {l : Last Instance}
    (hcached : Cached uci parseInstance timely l w) : Cached uci parseInstance timely l w' := by
  refine ⟨h.noted hcached.noted, fun heq => absurd heq (h.inputs_ne hcached.noted), ?_⟩
  rw [h.origin]
  exact hcached.backed

theorem Moved.kept (h : Moved w w') (hkept : Kept uci parseInstance timely w) :
    Kept uci parseInstance timely w' := by
  refine ⟨h.identity hkept.had, fun l hl => ?_⟩
  rw [h.last] at hl
  exact h.cached (hkept.cached l hl)

/-- A read in progress: what its inspections have noted, with what follows for the policy as long
as the files are as they were, and the replies to its queries. -/
structure Reading (timely : Bool) (uci : Uci Config Change)
    (parseInstance : Text → RawSection → Except String Instance)
    (inputs : Option (List (Option FileIdentity))) (P : Policy Config Change → Prop)
    (replies : List Bool) (w : World Config Change Instance) : Prop where
  kept : Kept uci parseInstance timely w
  held : ∀ i, inputs = some i → Noted i w ∧ (w.inputs = i → P w.policy)
  replies : w.replies = replies
  now : w.policy ∈ w.since

theorem Moved.reading {inputs : Option (List (Option FileIdentity))}
    {P : Policy Config Change → Prop} {replies : List Bool} (h : Moved w w')
    (hreading : Reading timely uci parseInstance inputs P replies w) :
    Reading timely uci parseInstance inputs P replies w' := by
  refine ⟨h.kept hreading.kept, fun i hi => ?_, h.replies.trans hreading.replies, ?_⟩
  · obtain ⟨hnoted, -⟩ := hreading.held i hi
    exact ⟨h.noted hnoted, fun heq => absurd heq (h.inputs_ne hnoted)⟩
  · rw [h.since]
    exact mem_append_right _ mem_cons_self

variable {snapshot : SchedulerConfigSnapshot Instance}

theorem Moved.backed (h : Moved w w') (hbacked : Backed uci parseInstance w.since snapshot) :
    Backed uci parseInstance w'.since snapshot := by
  obtain ⟨m, hm, hclean, hparse⟩ := hbacked
  refine ⟨m, ?_, hclean, hparse⟩
  rw [h.since]
  exact mem_append_left _ hm

theorem stable_reading {inputs : Option (List (Option FileIdentity))}
    {P : Policy Config Change → Prop} {replies : List Bool} :
    ((machine uci).restrict (Allowed timely)).Stable
      (Reading timely uci parseInstance inputs P replies) :=
  fun _ _ he h => (moved he).reading h

variable {A : World Config Change Instance → Prop}

theorem wp_step {ε α : Type} {Q : Except ε α → World Config Change Instance → Prop}
    {c : Call Instance} {k : Reply c → Program (Call Instance) Reply ε α}
    (hA : ((machine uci).restrict (Allowed timely)).Stable A)
    (hmade : ∀ w, A w → Allowed timely c w →
      wp ((machine uci).restrict (Allowed timely)) Q (fun _ => True)
        (k (perform uci c w).1) (perform uci c w).2)
    (hrefused : ∀ w r w', A w → Refused c w r w' →
      wp ((machine uci).restrict (Allowed timely)) Q (fun _ => True) (k r) w')
    (hw : A w) : wp ((machine uci).restrict (Allowed timely)) Q (fun _ => True) (.call c k) w := by
  refine wp_call_stable hA (fun _ _ => trivial) (fun _ _ _ _ => trivial) ?_ hw
  intro w r w' hw hstep
  obtain ⟨hallowed, hstep⟩ := hstep
  rcases hstep with hmade' | hrefused'
  · have hk := hmade w hw hallowed
    rw [hmade'] at hk
    exact hk
  · exact hrefused w r w' hw hrefused'

variable {Q : Except String (Option (List (Option FileIdentity))) → World Config Change Instance → Prop}

theorem wp_inspectAll (files : List PolicyFile)
    (hA : ((machine uci).restrict (Allowed timely)).Stable A)
    (hhad : ∀ w, A w → ∀ f, w.identity f ∈ w.had f)
    (hQ : ∀ w inputs, A w → (∀ i, inputs = some i → List.Forall₂ (fun f i => i ∈ w.had f) files i) →
      Q (.ok inputs) w)
    (hw : A w) :
    wp ((machine uci).restrict (Allowed timely)) Q (fun _ => True) (inspectAll files) w := by
  induction files generalizing A Q w with
  | nil =>
    refine wp_ret_stable hA (fun _ _ => trivial) (fun w hw => hQ w _ hw ?_) hw
    intro i hi
    rw [← Option.some.inj hi]
    exact List.Forall₂.nil
  | cons f rest ih =>
    refine wp_step hA ?_ ?_ hw
    · intro w hw _
      have hgrown : ((machine uci).restrict (Allowed timely)).Stable
          fun v : World Config Change Instance => w.identity f ∈ v.had f :=
        fun _ _ he hv => (moved he).had f _ hv
      refine wp_bind (ih (hA.and hgrown) (fun v hv => hhad v hv.1) ?_ ⟨hw, hhad w hw f⟩)
      intro v inputs hv hinputs
      refine wp_ret_stable (A := fun v => A v ∧ ∀ i, inputs = some i →
        List.Forall₂ (fun f i => i ∈ v.had f) (f :: rest) (w.identity f :: i)) ?_
        (fun _ _ => trivial) ?_ ⟨hv.1, fun i hi => List.Forall₂.cons hv.2 (hinputs i hi)⟩
      · intro v v' he hv
        refine ⟨hA v v' he hv.1, fun i hi => (hv.2 i hi).imp fun g j hj => ?_⟩
        exact (moved he).had g j hj
      · intro v hv
        refine hQ v _ hv.1 fun i hi => ?_
        obtain ⟨i', hi', rfl⟩ := Option.map_eq_some_iff.mp hi
        exact hv.2 i' hi'
    · intro w r w' hw hr
      obtain ⟨rfl, rfl⟩ := hr
      refine wp_ret_stable hA (fun _ _ => trivial) (fun w hw => hQ w none hw ?_) hw
      intro i hi
      cases hi

variable {inputs : Option (List (Option FileIdentity))} {P : Policy Config Change → Prop}
  {replies : List Bool}

theorem Reading.asked (h : Reading timely uci parseInstance inputs P replies w) (p : Package) :
    Reading timely uci parseInstance inputs
      (fun m => P m ∧ blank (uci.changes (m p)) = blank (uci.changes (w.policy p)))
      (replies ++ [blank (uci.changes (w.policy p))]) (perform uci (.uciChanges p) w).2 := by
  refine ⟨⟨h.kept.had, fun l hl => ?_⟩, fun i hi => ?_, ?_, h.now⟩
  · obtain ⟨hnoted, hfresh, hbacked⟩ := h.kept.cached l hl
    exact ⟨hnoted, hfresh, hbacked⟩
  · obtain ⟨hnoted, hP⟩ := h.held i hi
    exact ⟨hnoted, fun heq => ⟨hP heq, rfl⟩⟩
  · exact congrArg (· ++ _) h.replies

theorem Reading.mono {P' : Policy Config Change → Prop}
    (h : Reading timely uci parseInstance inputs P replies w) (hP : ∀ m, P m → P' m) :
    Reading timely uci parseInstance inputs P' replies w :=
  ⟨h.kept, fun i hi => ⟨(h.held i hi).1, fun heq => hP _ ((h.held i hi).2 heq)⟩, h.replies, h.now⟩

/-- **`configuration_committed`**, after some packages that have nothing staged. -/
theorem wp_configurationCommitted (done rest : List Package)
    {Q : Except String Bool → World Config Change Instance → Prop}
    (hQ : ∀ committed replies w, Reading timely uci parseInstance inputs
      (fun m => ((done ++ rest).all fun p => blank (uci.changes (m p))) = committed) replies w →
      (committed = true → replies = List.replicate (done ++ rest).length true) →
      (committed = false → replies ≠ []) → Q (.ok committed) w)
    (herr : ∀ e w, Kept uci parseInstance timely w → Q (.error e) w)
    (hw : Reading timely uci parseInstance inputs
      (fun m => ∀ p ∈ done, blank (uci.changes (m p)) = true)
      (List.replicate done.length true) w) :
    wp ((machine uci).restrict (Allowed timely)) Q (fun _ => True) (configurationCommitted rest)
      w := by
  induction rest generalizing done w with
  | nil =>
    refine wp_ret_stable stable_reading (fun _ _ => trivial) (fun w hw => ?_) hw
    rw [append_nil] at hQ
    refine hQ true _ w (hw.mono fun m hm => all_eq_true.mpr hm) (fun _ => rfl) ?_
    intro hfalse
    cases hfalse
  | cons p rest ih =>
    refine wp_step stable_reading ?_ ?_ hw
    · intro w hw _
      have hasked := hw.asked p
      show wp _ _ _ (if !blank (uci.changes (w.policy p)) then _ else _) _
      by_cases hblank : blank (uci.changes (w.policy p)) = true
      · rw [hblank, Bool.not_true, if_neg Bool.false_ne_true]
        rw [hblank] at hasked
        have happend : done ++ p :: rest = (done ++ [p]) ++ rest := by simp
        rw [happend] at hQ
        refine ih (done ++ [p]) hQ ?_
        rw [length_append, length_singleton, replicate_succ']
        refine hasked.mono fun m hm q hq => ?_
        rcases mem_append.mp hq with hq | hq
        · exact hm.1 q hq
        · rw [mem_singleton.mp hq]
          exact hm.2
      · have hfalse := eq_false_of_not_eq_true hblank
        rw [hfalse, Bool.not_false, if_pos rfl]
        rw [hfalse] at hasked
        refine wp_ret_stable stable_reading (fun _ _ => trivial) (fun w hw => ?_) hasked
        refine hQ false _ w (hw.mono fun m hm => ?_) ?_ (fun _ => by simp)
        · rw [all_eq_false]
          exact ⟨p, by simp, by simp [hm.2]⟩
        · intro htrue
          cases htrue
    · intro w r w' hw hr
      obtain ⟨rfl, e, rfl⟩ := hr
      exact wp_ret_stable stable_reading (fun _ _ => trivial) (fun w hw => herr e w hw.kept) hw

/-- **`scheduled_instances`**, and what the moment of its query is good for. -/
theorem wp_scheduledInstances
    {Q : Except String (SchedulerConfigSnapshot Instance) → World Config Change Instance → Prop}
    (hQ : ∀ snapshot w, Reading timely uci parseInstance inputs
      (fun m => P m ∧ parseScheduledInstances parseInstance (uci.show_ (m .cakeAutorate)) =
        .ok snapshot) replies w →
      (timely = true → replies = [true, true] → Backed uci parseInstance w.since snapshot) →
      Q (.ok snapshot) w)
    (herr : ∀ e w, Kept uci parseInstance timely w → Q (.error e) w)
    (hw : Reading timely uci parseInstance inputs P replies w) :
    wp ((machine uci).restrict (Allowed timely)) Q (fun _ => True)
      (scheduledInstances parseInstance) w := by
  refine wp_step stable_reading ?_ ?_ hw
  · intro w hw hallowed
    show wp _ _ _ (.ret (parseScheduledInstances parseInstance
      (uci.show_ (w.policy .cakeAutorate)))) w
    cases hparse : parseScheduledInstances parseInstance (uci.show_ (w.policy .cakeAutorate)) with
    | error e =>
      exact wp_ret_stable stable_reading (fun _ _ => trivial) (fun w hw => herr e w hw.kept) hw
    | ok snapshot =>
      have hread : Reading timely uci parseInstance inputs
          (fun m => P m ∧ parseScheduledInstances parseInstance (uci.show_ (m .cakeAutorate)) =
            .ok snapshot) replies w := by
        refine ⟨hw.kept, fun i hi => ?_, hw.replies, hw.now⟩
        obtain ⟨hnoted, hP⟩ := hw.held i hi
        exact ⟨hnoted, fun heq => ⟨hP heq, hparse⟩⟩
      have hbacked : timely = true → replies = [true, true] →
          Backed uci parseInstance w.since snapshot := by
        intro htimely hreplies
        obtain ⟨hstaged, m, hm, hclean, hsame⟩ :=
          hallowed htimely rfl (hw.replies.trans hreplies)
        refine ⟨m, hm, hclean, ?_⟩
        rw [Uci.show_, hstaged, foldl_nil] at hparse
        rw [hsame]
        exact hparse
      refine wp_ret_stable (A := fun w => Reading timely uci parseInstance inputs
          (fun m => P m ∧ parseScheduledInstances parseInstance (uci.show_ (m .cakeAutorate)) =
            .ok snapshot) replies w ∧ (timely = true → replies = [true, true] →
              Backed uci parseInstance w.since snapshot)) ?_ (fun _ _ => trivial)
        (fun w hw => hQ snapshot w hw.1 hw.2) ⟨hread, hbacked⟩
      intro v v' he hv
      exact ⟨stable_reading v v' he hv.1, fun h₁ h₂ => (moved he).backed (hv.2 h₁ h₂)⟩
  · intro w r w' hw hr
    obtain ⟨rfl, e, rfl⟩ := hr
    exact wp_ret_stable stable_reading (fun _ _ => trivial) (fun w hw => herr e w hw.kept) hw

def Answers (timely : Bool) (uci : Uci Config Change)
    (parseInstance : Text → RawSection → Except String Instance)
    (r : Except String (Bool × SchedulerConfigSnapshot Instance))
    (w : World Config Change Instance) : Prop :=
  Kept uci parseInstance timely w ∧ ∀ snapshot, r = .ok (true, snapshot) → timely = true →
    Backed uci parseInstance w.moments snapshot

theorem stable_answers {r : Except String (Bool × SchedulerConfigSnapshot Instance)} :
    ((machine uci).restrict (Allowed timely)).Stable (Answers timely uci parseInstance r) := by
  intro w w' he h
  have hmoved := moved he
  refine ⟨hmoved.kept h.1, fun snapshot hr ht => ?_⟩
  have hbacked := h.2 snapshot hr ht
  unfold moments at hbacked ⊢
  rw [hmoved.replies, hmoved.origin]
  by_cases hreplies : w.replies = []
  · rw [if_pos hreplies] at hbacked ⊢
    exact hbacked
  · rw [if_neg hreplies] at hbacked ⊢
    exact hmoved.backed hbacked

theorem answers_error {e : String} (h : Kept uci parseInstance timely w) :
    Answers timely uci parseInstance (.error e) w := by
  refine ⟨h, fun snapshot hr => ?_⟩
  cases hr

theorem wp_remember {committed : Bool} (hne : replies ≠ [])
    (hbacked : timely = true → committed = true → Backed uci parseInstance w.since snapshot)
    (hw : Reading timely uci parseInstance inputs
      (fun m => isCommitted uci m = committed ∧
        parseScheduledInstances parseInstance (uci.show_ (m .cakeAutorate)) = .ok snapshot)
      replies w) :
    wp ((machine uci).restrict (Allowed timely)) (Answers timely uci parseInstance)
      (fun _ => True) (remember inputs committed snapshot) w := by
  have hanswers : ∀ w, Kept uci parseInstance timely w → w.replies = replies →
      (timely = true → committed = true → Backed uci parseInstance w.since snapshot) →
      Answers timely uci parseInstance (.ok (committed, snapshot)) w := by
    intro w hkept hreplies hbacked
    refine ⟨hkept, fun snapshot' heq ht => ?_⟩
    obtain ⟨rfl, rfl⟩ := Prod.mk.inj (ok.inj heq)
    rw [moments, if_neg (hreplies ▸ hne)]
    exact hbacked ht rfl
  cases inputs with
  | none =>
    exact wp_ret_stable stable_answers (fun _ _ => trivial) (fun _ h => h)
      (hanswers w hw.kept hw.replies hbacked)
  | some i =>
    refine wp_step (A := fun w => Reading timely uci parseInstance (some i) (fun m =>
      isCommitted uci m = committed ∧ parseScheduledInstances parseInstance
        (uci.show_ (m .cakeAutorate)) = .ok snapshot) replies w ∧
      (timely = true → committed = true → Backed uci parseInstance w.since snapshot))
      ?_ ?_ ?_ ⟨hw, hbacked⟩
    · intro v v' he hv
      exact ⟨stable_reading v v' he hv.1, fun h₁ h₂ => (moved he).backed (hv.2 h₁ h₂)⟩
    · intro w hw _
      obtain ⟨hread, hbacked⟩ := hw
      have hkept : Kept uci parseInstance timely
          (perform uci (.remember ⟨i, committed, snapshot⟩) w).2 := by
        refine ⟨hread.kept.had, fun l hl => ?_⟩
        cases hl
        obtain ⟨hnoted, hP⟩ := hread.held i rfl
        refine ⟨hnoted, fun heq => ?_, hbacked⟩
        obtain ⟨hcommitted, hparse⟩ := hP heq
        show direct uci parseInstance w.policy = _
        rw [direct, hparse, ← hcommitted]
        rfl
      exact wp_ret_stable stable_answers (fun _ _ => trivial) (fun _ h => h)
        (hanswers _ hkept hread.replies hbacked)
    · intro w r w' _ hr
      exact hr.elim

/-- A read that asks `uci`. -/
theorem wp_query (hw : Reading timely uci parseInstance inputs (fun _ => True) [] w) :
    wp ((machine uci).restrict (Allowed timely)) (Answers timely uci parseInstance)
      (fun _ => True) (query parseInstance inputs) w := by
  have herr : ∀ (e : String) w, Kept uci parseInstance timely w →
      Answers timely uci parseInstance (.error e) w := fun e w => answers_error
  refine wp_step stable_reading ?_ (fun _ _ _ _ hr => hr.elim) hw
  intro w hw _
  have hforgot : Reading timely uci parseInstance inputs
      (fun m => ∀ p ∈ ([] : List Package), blank (uci.changes (m p)) = true) []
      (perform uci .forget w).2 := by
    refine ⟨⟨hw.kept.had, fun l hl => ?_⟩, fun i hi => ?_, hw.replies, hw.now⟩
    · cases hl
    · exact ⟨(hw.held i hi).1, fun _ p hp => absurd hp (not_mem_nil)⟩
  refine wp_bind (wp_configurationCommitted [] policyPackages ?_ herr hforgot)
  intro committed replies w hread htrue hfalse
  have hne : replies ≠ [] := by
    cases committed with
    | true =>
      rw [htrue rfl]
      decide
    | false => exact hfalse rfl
  refine wp_bind (wp_scheduledInstances ?_ herr hread)
  intro snapshot w hread' hbacked
  exact wp_remember hne (fun ht hc => hbacked ht (htrue hc)) hread'

/-- **One read** keeps the invariant, and answers a committed configuration. -/
theorem wp_read (hw : Kept uci parseInstance timely w) :
    wp ((machine uci).restrict (Allowed timely)) (Answers timely uci parseInstance)
      (fun _ => True) (read parseInstance) w.started := by
  have hbegin : Reading timely uci parseInstance none (fun _ => True) [] w.started := by
    refine ⟨⟨hw.had, fun l hl => ?_⟩, fun i hi => ?_, rfl, mem_singleton.mpr rfl⟩
    · obtain ⟨hnoted, hfresh, hbacked⟩ := hw.cached l hl
      exact ⟨hnoted, hfresh, hbacked⟩
    · cases hi
  refine wp_bind (wp_inspectAll policyFiles stable_reading (fun w h => h.kept.had) ?_ hbegin)
  intro w inputs hread hinputs
  have hread' : Reading timely uci parseInstance inputs (fun _ => True) [] w :=
    ⟨hread.kept, fun i hi => ⟨hinputs i hi, fun _ => trivial⟩, hread.replies, hread.now⟩
  refine wp_step stable_reading ?_ (fun _ _ _ _ hr => hr.elim) hread'
  intro w hread _
  dsimp only [perform]
  cases hreuse : reusable inputs w.last with
  | none => exact wp_query hread
  | some last =>
    obtain ⟨hlast, -⟩ := Option.filter_eq_some_iff.mp hreuse
    refine wp_ret_stable stable_answers (fun _ _ => trivial) (fun _ h => h)
      ⟨hread.kept, fun snapshot heq ht => ?_⟩
    obtain ⟨hcommitted, rfl⟩ := Prod.mk.inj (ok.inj heq)
    rw [moments, if_pos hread.replies]
    exact (hread.kept.cached last hlast).backed ht hcommitted

/-- **Every run** keeps the invariant. -/
theorem Reached.kept (h : Reached uci parseInstance timely w) :
    Kept uci parseInstance timely w := by
  induction h with
  | start w hnone hhad =>
    refine ⟨hhad, fun l hl => ?_⟩
    rw [hnone] at hl
    cases hl
  | foreign _ hstep ih => exact hstep.moved.kept ih
  | read _ hread ih => exact (wp_sound (wp_read ih) hread).2.1

def quiet (uci : Uci Config Change) : System (World Config Change Instance) (Call Instance) Reply :=
  .faulty (perform uci) Refused fun _ _ _ => False

theorem quiet_inspectAll (files : List PolicyFile) (hnone : Q (.ok none) w)
    (hsome : Q (.ok (some (files.map w.identity))) w) :
    wp (quiet uci) Q (fun _ => True) (inspectAll files) w := by
  induction files generalizing Q with
  | nil => exact wp_faulty_ret trivial hsome
  | cons f rest ih =>
    refine wp_faulty_call trivial (fun _ h => h.elim) ?_ ?_
    · exact wp_bind (ih (wp_faulty_ret trivial hnone) (wp_faulty_ret trivial hsome))
    · intro r w' hr
      obtain ⟨rfl, rfl⟩ := hr
      exact wp_faulty_ret trivial hnone

theorem quiet_configurationCommitted (done rest : List Package) {m : Policy Config Change}
    {Q : Except String Bool → World Config Change Instance → Prop}
    (hQ : ∀ w, w.policy = m → Q (.ok ((done ++ rest).all fun p => blank (uci.changes (m p)))) w)
    (herr : ∀ e w, Q (.error e) w) (hw : w.policy = m)
    (hdone : ∀ p ∈ done, blank (uci.changes (m p)) = true) :
    wp (quiet uci) Q (fun _ => True) (configurationCommitted rest) w := by
  induction rest generalizing done w with
  | nil =>
    have hall := hQ w hw
    rw [append_nil, all_eq_true.mpr hdone] at hall
    exact wp_faulty_ret trivial hall
  | cons p rest ih =>
    refine wp_faulty_call trivial (fun _ h => h.elim) ?_ ?_
    · show wp _ _ _ (if !blank (uci.changes (w.policy p)) then _ else _) _
      rw [hw]
      by_cases hblank : blank (uci.changes (m p)) = true
      · rw [hblank, Bool.not_true, if_neg Bool.false_ne_true]
        have happend : done ++ p :: rest = (done ++ [p]) ++ rest := by simp
        rw [happend] at hQ
        refine ih (done ++ [p]) hQ hw fun q hq => ?_
        rcases mem_append.mp hq with hq | hq
        · exact hdone q hq
        · rw [mem_singleton.mp hq]
          exact hblank
      · have hfalse := eq_false_of_not_eq_true hblank
        rw [hfalse, Bool.not_false, if_pos rfl]
        have hall : ((done ++ p :: rest).all fun p => blank (uci.changes (m p))) = false := by
          rw [all_eq_false]
          exact ⟨p, by simp, hblank⟩
        rw [hall] at hQ
        exact wp_faulty_ret trivial (hQ _ hw)
    · intro r w' hr
      obtain ⟨rfl, e, rfl⟩ := hr
      exact wp_faulty_ret trivial (herr e w')

/-- **A read while nobody moves** answers what `uci` answers, from the cache or not. -/
theorem quiet_read (hw : Kept uci parseInstance timely w) :
    wp (quiet uci) (fun r _ => ∀ a, r = .ok a → direct uci parseInstance w.policy = .ok a)
      (fun _ => True) (read parseInstance) w.started := by
  have herr : ∀ (e : String) (_ : World Config Change Instance) (a : Bool × _),
      error e = .ok a → direct uci parseInstance w.policy = .ok a := by
    intro e _ a h
    cases h
  have hquery : ∀ inputs, wp (quiet uci)
      (fun r _ => ∀ a, r = .ok a → direct uci parseInstance w.policy = .ok a) (fun _ => True)
      (query parseInstance inputs) w.started := by
    intro inputs
    refine wp_faulty_call trivial (fun _ h => h.elim) ?_ (fun _ _ hr => hr.elim)
    refine wp_bind (quiet_configurationCommitted [] policyPackages (m := w.policy) ?_ herr rfl
      (fun p hp => absurd hp not_mem_nil))
    intro v hv
    refine wp_bind (wp_faulty_call trivial (fun _ h => h.elim) ?_ ?_)
    · show wp _ _ _ (.ret (parseScheduledInstances parseInstance
        (uci.show_ (v.policy .cakeAutorate)))) v
      rw [hv]
      cases hparse : parseScheduledInstances parseInstance (uci.show_ (w.policy .cakeAutorate)) with
      | error e => exact wp_faulty_ret trivial (herr e v)
      | ok snapshot =>
        have hdirect : direct uci parseInstance w.policy =
            .ok (isCommitted uci w.policy, snapshot) := by
          rw [direct, hparse]
          rfl
        have hdone : ∀ a, ok (isCommitted uci w.policy, snapshot) = .ok a →
            direct uci parseInstance w.policy = .ok a := fun a ha => hdirect.trans ha
        refine wp_faulty_ret trivial ?_
        cases inputs with
        | none => exact wp_faulty_ret trivial hdone
        | some i =>
          exact wp_faulty_call trivial (fun _ h => h.elim) (wp_faulty_ret trivial hdone)
            (fun _ _ hr => hr.elim)
    · intro r w' hr
      obtain ⟨rfl, e, rfl⟩ := hr
      exact wp_faulty_ret trivial (herr e w')
  have hrecall : ∀ inputs, (∀ i, inputs = some i → i = w.inputs) → ∀ k,
      (∀ last, k last = (reusable inputs last).elim (query parseInstance inputs)
        fun last => pure (last.committed, last.snapshot)) → wp (quiet uci)
      (fun r _ => ∀ a, r = .ok a → direct uci parseInstance w.policy = .ok a) (fun _ => True)
      (.call .recall k) w.started := by
    intro inputs hinputs k hk
    refine wp_faulty_call trivial (fun _ h => h.elim) ?_ (fun _ _ hr => hr.elim)
    show wp _ _ _ (k w.last) _
    rw [hk]
    cases hreuse : reusable inputs w.last with
    | none => exact hquery inputs
    | some last =>
      obtain ⟨hlast, hsame⟩ := Option.filter_eq_some_iff.mp hreuse
      have hfresh := (hw.cached last hlast).fresh (hinputs _ (of_decide_eq_true hsame)).symm
      exact wp_faulty_ret trivial fun a ha => hfresh.trans ha
  refine wp_bind (quiet_inspectAll policyFiles (hrecall none ?_ _ ?_)
    (hrecall (some (policyFiles.map w.started.identity)) ?_ _ ?_))
  · intro i hi
    cases hi
  · intro last
    cases reusable none last with
    | none => rfl
    | some l => rfl
  · intro i hi
    exact (Option.some.inj hi).symm
  · intro last
    cases reusable (some (policyFiles.map w.started.identity)) last with
    | none => rfl
    | some l => rfl

theorem answered_fresh (w : World Config Change Instance) :
    (answered (perform uci) (read parseInstance) { w.started with last := none }).1 =
      direct uci parseInstance w.policy := by
  have hcake := eq_false_or_eq_true (blank (uci.changes (w.policy .cakeAutorate)))
  have hsqm := eq_false_or_eq_true (blank (uci.changes (w.policy .sqm)))
  cases hparse : parseScheduledInstances parseInstance (uci.show_ (w.policy .cakeAutorate)) <;>
    rcases hcake with hcake | hcake <;> rcases hsqm with hsqm | hsqm <;>
    simp [answered, read, inspectAll, query, configurationCommitted, scheduledInstances, remember,
      reusable, perform, policyFiles, policyPackages, direct, isCommitted, started, hparse,
      hcake, hsqm, Except.map, Program.lift]

end Runs
end CakeAutorate.SchedulerConfig
