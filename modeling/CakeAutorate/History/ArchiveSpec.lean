/-
# What one call of `archive` does

Against a directory whose file is absent or holds a valid decision, a call is accepted exactly when the
decision succeeds what is stored, and then the file holds it; a refused call leaves the file.  A crash
leaves the old file or the new one, except that a first file may be left unfinished.
-/

import CakeAutorate.History.Archive

namespace CakeAutorate.History

open Syscall HistoryDecision Or Name

variable {serde : Serde} {d p : HistoryDecision} {s : Disk}

def HistoryDecision.trusted (p : HistoryDecision) : Option RawReference :=
  if p.blocked then p.reference else some p.current

/-- A decision succeeds a stored one. -/
structure HistoryDecision.Succeeds (d p : HistoryDecision) : Prop where
  valid : d.Valid
  boot : p.bootId = d.bootId
  route : p.routeKey = d.routeKey
  later : p.current.createdUnixMs < d.current.createdUnixMs
  distinct : p.current.jobId ≠ d.current.jobId
  reference : d.reference = p.trusted

/-- What `archive` accepts: a valid first decision, the stored one, or one that succeeds it. -/
def Accepts : Option HistoryDecision → HistoryDecision → Prop
  | none, d => d.Valid
  | some p, d => d = p ∨ d.Succeeds p

theorem passesOn_eq (p : HistoryDecision) : ∃ r, p.passesOn = .ok r ∧ p.trusted = some r := by
  unfold passesOn trusted
  by_cases hblocked : p.blocked = true
  · cases hr : p.reference with
    | none => simp [blocked, hr] at hblocked
    | some r => exact ⟨r, by simp [hblocked], by simp [hblocked]⟩
  · exact ⟨p.current, by simp [hblocked], by simp [hblocked]⟩

theorem Valid.forget (h : d.Valid) : ({ d with reference := none } : HistoryDecision).Valid :=
  ⟨h.boot, h.route, h.request, h.worker, h.current, nofun⟩

/-- **What the projected predecessor gives**: the decision itself, exactly for a successor. -/
theorem projected_eq (hd : d.Valid) (hp : p.Valid) (hboot : p.bootId = d.bootId)
    (hroute : p.routeKey = d.routeKey) (hjob : p.current.jobId ≠ d.current.jobId)
    (hlater : p.current.createdUnixMs < d.current.createdUnixMs) :
    (d.Succeeds p → ({ d with reference := none } : HistoryDecision).inheritReference p = .ok d) ∧
      (({ d with reference := none } : HistoryDecision).inheritReference p = .ok d →
        d.Succeeds p) := by
  obtain ⟨r, hpasses, htrusted⟩ := passesOn_eq p
  have hvalid : ({ d with reference := none } : HistoryDecision).validate = .ok () :=
    validate_ok.mpr (Valid.forget hd)
  have hbinding : check (({ d with reference := none } : HistoryDecision).reference.isNone &&
      d.bootId == p.bootId && d.routeKey == p.routeKey &&
      decide (p.current.createdUnixMs < d.current.createdUnixMs) &&
      p.current.jobId != d.current.jobId)
        "history predecessor does not match this decision" = .ok () := by
    refine check_ok.mpr ?_
    simp [hboot, hroute, hjob, hlater]
  constructor
  · intro hsucceeds
    have hinherited : ({ d with reference := some r } : HistoryDecision) = d := by
      have hr := hsucceeds.reference
      rw [htrusted] at hr
      rw [← hr]
    refine bind_ok.mpr ⟨(), hvalid, bind_ok.mpr ⟨(), validate_ok.mpr hp, ?_⟩⟩
    refine bind_ok.mpr ⟨(), hbinding, bind_ok.mpr ⟨r, hpasses, ?_⟩⟩
    refine bind_ok.mpr ⟨(), ?_, ?_⟩
    · exact (congrArg validate hinherited).trans (validate_ok.mpr hd)
    · exact congrArg Except.ok hinherited
  · intro hprojected
    obtain ⟨_, -, h⟩ := bind_ok.mp hprojected
    obtain ⟨_, -, h⟩ := bind_ok.mp h
    obtain ⟨_, -, h⟩ := bind_ok.mp h
    obtain ⟨r', hpasses', h⟩ := bind_ok.mp h
    obtain ⟨_, -, h⟩ := bind_ok.mp h
    have hsame : d.reference = some r' := by
      rw [← Except.ok.inj h]
    rw [hpasses] at hpasses'
    refine ⟨hd, hboot, hroute, hlater, hjob, ?_⟩
    rw [hsame, htrusted, Except.ok.inj hpasses']

variable {β : Type}

theorem reads_stat (name : Name) {f : Option (ℕ × ℕ) → Prog β} {r : Except String β}
    (h : Reads exec torn r (f ((s.files name).map fun g => (g.mode, g.bytes.length))) s) :
    Reads exec torn r (call (.stat name) >>= f) s :=
  ⟨rfl, fun _ ht => ht, h⟩

theorem reads_read (name : Name) {f : Bytes → Prog β} {r : Except String β}
    (h : Reads exec torn r (f (((s.files name).map File.bytes).getD [])) s) :
    Reads exec torn r (call (.read name) >>= f) s :=
  ⟨rfl, fun _ ht => ht, h⟩

theorem require_true {ok : Bool} {message : String} {f : Unit → Prog β} (h : ok = true) :
    (require ok message >>= f) = f () := by
  rw [require, check, if_pos h]
  rfl

theorem require_false {ok : Bool} {message : String} {f : Unit → Prog β} (h : ok ≠ true) :
    (require ok message >>= f) = .ret (.error message) := by
  rw [require, check, if_neg h]
  rfl

theorem reads_private (hdir : s.directory = some privateDirectory) :
    Reads exec torn (.ok ()) requirePrivateDirectory s := by
  refine ⟨rfl, fun _ ht => ht, ?_⟩
  rw [show (exec .statDirectory s).1 = some privateDirectory from hdir]
  rfl

variable {bytes : Bytes}

theorem reads_file {maximum : ℕ} (hfile : s.files .route = some ⟨privateFile, bytes⟩)
    (hfits : bytes.length ≤ maximum) :
    Reads exec torn (.ok bytes) (readPrivateRecoveryBounded maximum) s := by
  refine reads_stat .route ?_
  simp only [hfile, Option.map_some]
  rw [require_true (by decide), require_true (decide_eq_true hfits)]
  refine reads_read .route ?_
  simp only [hfile, Option.map_some, Option.getD_some]
  rw [require_true (decide_eq_true hfits)]
  rfl

def fileOf (serde : Serde) (d : HistoryDecision) : File := ⟨privateFile, d.line serde⟩

/-- **A stored decision is read.** -/
theorem reads_decision (hserde : Lines serde) (hdir : s.directory = some privateDirectory)
    (hp : p.Valid) (hfile : s.files .route = some (fileOf serde p)) :
    Reads exec torn (.ok p) (readDecision serde) s := by
  refine .bind (reads_private hdir) ?_
  refine .bind (reads_file hfile (line_length hserde hp)) ?_
  obtain ⟨text, htext⟩ := line_utf8 hserde hp
  simp only [htext]
  exact decode_line hserde hp

variable {Q : Except String Unit → Disk → Prop} {I : Disk → Prop}

theorem wp_reply {c : Call} {r : Reply c} {s' : Disk} {β : Type} {f : Reply c → Prog β}
    {Q : Except String β → Disk → Prop} (hr : exec c s = (r, s')) (hI : I s)
    (ht : ∀ t, ¬torn c s t) (h : wp machine Q I (f r) s') :
    wp machine Q I (call c >>= f) s := by
  refine wp_alone_call hI (fun t hs => absurd hs (ht t)) ?_
  rw [hr]
  exact h

variable {name : Name}

theorem exec_stat_none (h : s.files name = none) : exec (.stat name) s = (none, s) := by
  show ((s.files name).map fun f => (f.mode, f.bytes.length), s) = _
  rw [h]
  rfl

theorem exec_stat_some {file : File} (h : s.files name = some file) :
    exec (.stat name) s = (some (file.mode, file.bytes.length), s) := by
  show ((s.files name).map fun f => (f.mode, f.bytes.length), s) = _
  rw [h]
  rfl

theorem put_self (t : Disk) (name : Name) (file : Option File) :
    (t.put name file).files name = file := Function.update_self _ _ _

theorem put_next (t : Disk) (file : Option File) :
    (t.put .next file).files .route = t.files .route := by
  have hne : route ≠ next := by decide
  exact Function.update_of_ne hne file t.files

section

variable {β : Type} {f : Unit → Prog β} {Q : Except String β → Disk → Prop}

/-- `ensure_private_directory` leaves the files, and a private directory. -/
theorem wp_ensure (hI : ∀ s' : Disk, s'.files = s.files → I s')
    (h : ∀ s' : Disk, s'.directory = some privateDirectory → s'.files = s.files →
      wp machine Q I (f ()) s') :
    wp machine Q I (ensurePrivateDirectory >>= f) s := by
  have hrequire : ∀ s' : Disk, s'.directory = some privateDirectory → s'.files = s.files →
      wp machine Q I (requirePrivateDirectory >>= f) s' :=
    fun s' hdir hfiles => Reads.wp_bind (reads_private hdir) (h s' hdir hfiles)
  have hsecured : ∀ s' : Disk, s'.files = s.files →
      wp machine Q I (call .secureDirectory >>= fun _ => requirePrivateDirectory >>= f) s' :=
    fun s' hfiles => wp_reply rfl (hI s' hfiles) (fun _ ht => ht) (hrequire _ rfl hfiles)
  cases hdir : s.directory with
  | none =>
    have hstat : exec .statDirectory s = (none, s) := Prod.ext hdir rfl
    refine wp_reply hstat (hI s rfl) (fun _ ht => ht) ?_
    refine wp_reply rfl (hI s rfl) (fun _ ht => ht) ?_
    iterate 2 refine wp_reply rfl (hI _ rfl) (fun _ ht => ht) ?_
    exact hrequire _ rfl rfl
  | some mode =>
    have hstat : exec .statDirectory s = (some mode, s) := Prod.ext hdir rfl
    refine wp_reply hstat (hI s rfl) (fun _ ht => ht) ?_
    by_cases hmode : mode = privateDirectory
    · show wp machine Q I ((if mode = privateDirectory then requirePrivateDirectory
        else call .secureDirectory >>= fun _ => requirePrivateDirectory) >>= f) s
      rw [if_pos hmode]
      rw [hmode] at hdir
      exact hrequire s hdir rfl
    · show wp machine Q I ((if mode = privateDirectory then requirePrivateDirectory
        else call .secureDirectory >>= fun _ => requirePrivateDirectory) >>= f) s
      rw [if_neg hmode]
      exact hsecured s rfl

theorem wp_writeNew (hfree : s.files name = none) (hI : I s)
    (hpart : ∀ start, start <+: bytes → I (s.put name (some ⟨privateFile, start⟩)))
    (h : wp machine Q I (f ()) (s.put name (some ⟨privateFile, bytes⟩))) :
    wp machine Q I (writeNewPrivateFile name bytes >>= f) s := by
  have hput : ∀ start, ((s.put name (some ⟨privateFile, []⟩)).append name start) =
      s.put name (some ⟨privateFile, start⟩) := by
    intro start
    simp [Disk.append, Disk.put]
  have hcreate : exec (.createNew name) s = (true, s.put name (some ⟨privateFile, []⟩)) := by
    simp [exec, hfree]
  refine wp_reply hcreate hI (fun _ ht => ht) ?_
  refine wp_alone_call (hpart [] List.nil_prefix) ?_ ?_
  · rintro s' ⟨start, hstart, rfl⟩
    rw [hput]
    exact hpart start hstart
  · have hwritten : exec (.write name bytes) (s.put name (some ⟨privateFile, []⟩)) =
        ((), s.put name (some ⟨privateFile, bytes⟩)) := Prod.ext rfl (hput bytes)
    have hwhole := hpart bytes (List.prefix_refl bytes)
    rw [hwritten]
    refine wp_reply rfl hwhole (fun _ ht => ht) ?_
    refine wp_reply (exec_stat_some (put_self s name _)) hwhole (fun _ ht => ht) ?_
    exact h

/-- A file is replaced in one step; before it only `.history-next` changes. -/
theorem wp_replace (hI : ∀ s' : Disk, s'.files .route = s.files .route → I s')
    (h : ∀ s' : Disk, s'.files .route = some ⟨privateFile, bytes⟩ → wp machine Q I (f ()) s') :
    wp machine Q I (replacePrivateFile bytes >>= f) s := by
  have hpublish : ∀ t : Disk, t.files .route = s.files .route → t.files .next = none →
      wp machine Q I ((writeNewPrivateFile .next bytes >>= fun _ => call .publishNext) >>= f) t := by
    intro t hroute hfree
    rw [Program.bind_bind]
    refine wp_writeNew hfree (hI t hroute) (fun start _ => hI _ ?_) ?_
    · rw [put_next, hroute]
    · refine wp_reply rfl (hI _ ?_) (fun _ ht => ht) (h _ ?_)
      · rw [put_next, hroute]
      · rw [put_next, put_self, put_self]
  cases hnext : s.files .next with
  | none =>
    refine wp_reply (exec_stat_none hnext) (hI s rfl) (fun _ ht => ht) ?_
    exact hpublish s rfl hnext
  | some file =>
    refine wp_reply (exec_stat_some hnext) (hI s rfl) (fun _ ht => ht) ?_
    refine wp_reply rfl (hI s rfl) (fun _ ht => ht) ?_
    exact hpublish _ (put_next s none) (put_self s .next none)

end

section

variable (serde : Serde) (stored : Option HistoryDecision) (d : HistoryDecision)

def Leaves (file : Option File) : Prop :=
  file = stored.map (fileOf serde) ∨ (Accepts stored d ∧ file = some (fileOf serde d)) ∨
    (stored = none ∧ d.Valid ∧ ∃ start, start <+: d.line serde ∧ file = some ⟨privateFile, start⟩)

def Answers (r : Except String Unit) (file : Option File) : Prop :=
  (Accepts stored d ∧ r = .ok () ∧ file = some (fileOf serde d)) ∨
    (¬Accepts stored d ∧ (∃ e, r = .error e) ∧ file = stored.map (fileOf serde))

/-- A run whose answer is that of `Answers`, and that leaves what `Leaves` says wherever it stops. -/
abbrev Archives (p : Prog Unit) (s : Disk) : Prop :=
  wp machine (fun r s' => Answers serde stored d r (s'.files .route))
    (fun s' => Leaves serde stored d (s'.files .route)) p s

end

variable {stored : Option HistoryDecision}

theorem wp_refuse {e : String} (hrefused : ¬Accepts stored d)
    (hfile : s.files .route = stored.map (fileOf serde)) :
    Archives serde stored d (.ret (.error e) : Prog Unit) s :=
  wp_alone_ret (inl hfile) (inr ⟨hrefused, ⟨e, rfl⟩, hfile⟩)

theorem wp_stored (haccepted : Accepts stored d) (hfile : s.files .route = some (fileOf serde d)) :
    Archives serde stored d (call .syncDirectory) s := by
  have hleft : Leaves serde stored d (s.files .route) := inr (inl ⟨haccepted, hfile⟩)
  refine wp_alone_call hleft (fun _ ht => absurd ht id) ?_
  exact wp_alone_ret hleft (inl ⟨haccepted, rfl, hfile⟩)

theorem wp_succeed (hserde : Lines serde) (hd : d.Valid) (hp : p.Valid)
    (hfile : s.files .route = some (fileOf serde p)) :
    Archives serde (some p) d (d.succeedStored serde p) s := by
  have hleft : Leaves serde (some p) d (s.files .route) := inl hfile
  by_cases hbinding : p.bootId = d.bootId ∧ p.routeKey = d.routeKey
  · have hbound : (p.bootId == d.bootId && p.routeKey == d.routeKey) = true := by
      simp [hbinding.1, hbinding.2]
    rw [succeedStored, require_true hbound]
    by_cases hjob : p.current.jobId = d.current.jobId
    · rw [if_pos hjob]
      by_cases hsame : p = d
      · subst hsame
        rw [require_true (by simp)]
        exact wp_stored (inl rfl) hfile
      · rw [require_false (by simpa using hsame)]
        refine wp_refuse ?_ hfile
        rintro (heq | hsucceeds)
        · exact hsame heq.symm
        · exact hsucceeds.distinct hjob
    · rw [if_neg hjob]
      by_cases hlater : p.current.createdUnixMs < d.current.createdUnixMs
      · rw [require_true (decide_eq_true hlater)]
        obtain ⟨hof, hto⟩ := projected_eq hd hp hbinding.1 hbinding.2 hjob hlater
        have hrefused : ({ d with reference := none } : HistoryDecision).inheritReference p ≠ .ok d →
            ¬Accepts (some p) d := by
          rintro hne (heq | hsucceeds)
          · exact hjob (by rw [heq])
          · exact hne (hof hsucceeds)
        cases hprojected : ({ d with reference := none } : HistoryDecision).inheritReference p with
        | error e =>
          refine wp_refuse (hrefused ?_) hfile
          rw [hprojected]
          intro h
          cases h
        | ok projected =>
          by_cases hsame : projected = d
          · have hsucceeds : d.Succeeds p := hto (hprojected.trans (by rw [hsame]))
            have haccepted : Accepts (some p) d := inr hsucceeds
            show wp machine _ _ (require (projected == d) _ >>= _) s
            rw [require_true (by simpa using hsame), encode_line hserde hd]
            refine wp_replace (fun s' hs' => ?_) fun s' hs' => wp_stored haccepted hs'
            rw [hs']
            exact hleft
          · show wp machine _ _ (require (projected == d) _ >>= _) s
            rw [require_false (by simpa using hsame)]
            refine wp_refuse (hrefused ?_) hfile
            rw [hprojected]
            exact fun h => hsame (Except.ok.inj h)
      · rw [require_false (by simpa using hlater)]
        refine wp_refuse ?_ hfile
        rintro (heq | hsucceeds)
        · exact hjob (by rw [heq])
        · exact hlater hsucceeds.later
  · rw [succeedStored, require_false (by simpa using hbinding)]
    refine wp_refuse ?_ hfile
    rintro (heq | hsucceeds)
    · exact hbinding (by rw [heq]; exact ⟨rfl, rfl⟩)
    · exact hbinding ⟨hsucceeds.boot, hsucceeds.route⟩

theorem wp_publish (hserde : Lines serde) (hd : d.Valid)
    (hdir : s.directory = some privateDirectory) (hfile : s.files .route = none) :
    Archives serde none d (d.publish serde) s := by
  have hleft : Leaves serde none d (s.files .route) := inl hfile
  rw [publish, encode_line hserde hd]
  show wp machine _ _ (requirePrivateDirectory >>= _) s
  refine Reads.wp_bind (reads_private hdir) ?_
  refine wp_reply (exec_stat_none hfile) hleft (fun _ ht => ht) ?_
  refine wp_writeNew hfile hleft (fun start hstart => ?_) (wp_stored hd (put_self _ _ _))
  exact inr (inr ⟨rfl, hd, start, hstart, put_self _ _ _⟩)

/-- **One call of `archive`.** -/
theorem wp_archive (hserde : Lines serde) (hstored : ∀ p, stored = some p → p.Valid)
    (hfile : s.files .route = stored.map (fileOf serde)) :
    Archives serde stored d (d.archive serde) s := by
  rw [archive]
  by_cases hd : d.Valid
  · rw [validate_ok.mpr hd]
    refine wp_ensure (fun s' hs' => inl (by rw [hs']; exact hfile)) fun s' hdir hfiles => ?_
    have hfile' : s'.files .route = stored.map (fileOf serde) := by rw [hfiles]; exact hfile
    cases hcase : stored with
    | none =>
      rw [hcase] at hfile'
      refine wp_reply (exec_stat_none hfile') (inl hfile') (fun _ ht => ht) ?_
      refine wp_reply rfl (inl hfile') (fun _ ht => ht) ?_
      have hentries : decide
          (([route, next].filter fun n => (s'.files n).isSome).length < maxRoutes) = true := by
        refine decide_eq_true ?_
        have hlength := List.length_filter_le (fun n => (s'.files n).isSome) [route, .next]
        have htwo : [route, next].length = 2 := rfl
        unfold maxRoutes
        omega
      show wp machine _ _ (require (decide
        (([route, next].filter fun n => (s'.files n).isSome).length < maxRoutes)) _ >>= _) s'
      rw [require_true hentries]
      exact wp_publish hserde hd hdir hfile'
    | some p =>
      rw [hcase] at hfile'
      have hp := hstored p hcase
      refine wp_reply (exec_stat_some hfile') (inl hfile') (fun _ ht => ht) ?_
      exact Reads.wp_bind (reads_decision hserde hdir hp hfile') (wp_succeed hserde hd hp hfile')
  · obtain ⟨e, he⟩ := validate_error hd
    rw [he]
    refine wp_refuse ?_ hfile
    cases stored with
    | none => exact hd
    | some p =>
      rintro (heq | hsucceeds)
      · exact hd (heq ▸ hstored p rfl)
      · exact hd hsucceeds.valid

end CakeAutorate.History
