/-
# The hold over a run of the archive

A run is a sequence of calls of `archive` with decisions of one boot and one route, each of which
returns or is cut off by a crash anywhere.  Its history is the decisions that were stored, the
latest first.  The hold is that a decision stored after others refers to the sample of the latest
one before it that was not blocked.

The first decision of a route is written in place.  A crash that cuts this write off leaves a file
that every later call refuses.
-/

import CakeAutorate.History.ArchiveSpec

namespace CakeAutorate.History

open Syscall List HistoryDecision Json

variable {serde : Serde} {boot key : Bytes} {d p : HistoryDecision} {s s' : Disk}
  {h : List HistoryDecision}

def storedDecision (serde : Serde) (s : Disk) : Option HistoryDecision :=
  (s.files .route).bind fun f => (decode serde f.bytes).toOption

def record (h : List HistoryDecision) (stored : Option HistoryDecision) : List HistoryDecision :=
  match stored with
  | none => h
  | some d => if h.head? = some d then h else d :: h

/-- Runs of calls that are allowed, from a directory without a decision, with their histories. -/
inductive Run (serde : Serde) (boot key : Bytes) (allowed : HistoryDecision → Disk → Disk → Prop) :
    List HistoryDecision → Disk → Prop where
  | start {s : Disk} : s.files .route = none → Run serde boot key allowed [] s
  | call {h : List HistoryDecision} {s : Disk} {d : HistoryDecision} {o : Outcome Disk String Unit} :
      Run serde boot key allowed h s → d.bootId = boot → d.routeKey = key →
      Exec machine (d.archive serde) s o → allowed d s o.state →
      Run serde boot key allowed (record h (storedDecision serde o.state)) o.state

/-- A call leaves no unfinished first file: a crash does not fall between the creation of the file and
the end of the write to it. -/
def Finished (serde : Serde) (d : HistoryDecision) (s s' : Disk) : Prop :=
  s.files .route = none → s'.files .route = none ∨ s'.files .route = some (fileOf serde d)

/-- What the next decision refers to: the sample of the latest decision that was not blocked, or the
reference of the first one. -/
def inherited : List HistoryDecision → Option RawReference
  | [] => none
  | [p] => p.trusted
  | p :: q :: rest => if p.blocked then inherited (q :: rest) else some p.current

def Chain : List HistoryDecision → Prop
  | [] => True
  | [_] => True
  | d :: p :: rest => p.current.createdUnixMs < d.current.createdUnixMs ∧
      d.reference = inherited (p :: rest) ∧ Chain (p :: rest)

/-- What the archive promises in a state with a history. -/
structure Held (serde : Serde) (boot key : Bytes) (h : List HistoryDecision) (s : Disk) : Prop where
  stored : storedDecision serde s = h.head?
  chain : Chain h
  /-- A call that is refused leaves the stored decision. -/
  refused : ∀ (d : HistoryDecision) (e : String) (s' : Disk),
    Exec machine (d.archive serde) s (.returned (.error e) s') →
    storedDecision serde s' = storedDecision serde s
  /-- The stored decision is archived again and nothing changes. -/
  again : ∀ d, storedDecision serde s = some d →
    ∀ o : Outcome Disk String Unit, Exec machine (d.archive serde) s o →
    storedDecision serde o.state = some d ∧ ∀ r s', o = .returned r s' → r = .ok ()
  /-- A successor of the stored decision is archived; so is a first decision. -/
  next : ∀ d, d.bootId = boot → d.routeKey = key → Accepts (storedDecision serde s) d →
    ∀ (r : Except String Unit) (s' : Disk), Exec machine (d.archive serde) s (.returned r s') →
      r = .ok () ∧ storedDecision serde s' = some d

theorem trusted_eq_inherited {p : HistoryDecision} {rest : List HistoryDecision}
    (hchain : Chain (p :: rest)) : p.trusted = inherited (p :: rest) := by
  cases rest with
  | nil => rfl
  | cons q rest =>
    rw [inherited, trusted]
    split
    · exact hchain.2.1
    · rfl

/-- What holds of the directory between calls. -/
structure Kept (serde : Serde) (boot key : Bytes) (h : List HistoryDecision) (s : Disk) : Prop where
  file : s.files .route = h.head?.map (fileOf serde)
  members : ∀ p ∈ h, p.Valid ∧ p.bootId = boot ∧ p.routeKey = key
  chain : Chain h

theorem stored_fileOf (hserde : Lines serde) (hp : p.Valid)
    (hfile : s.files .route = some (fileOf serde p)) : storedDecision serde s = some p := by
  rw [storedDecision, hfile]
  show (decode serde (p.line serde)).toOption = some p
  rw [decode_line hserde hp]
  rfl

theorem stored_none (hfile : s.files .route = none) : storedDecision serde s = none := by
  rw [storedDecision, hfile]
  rfl

theorem Kept.stored (hserde : Lines serde) (hkept : Kept serde boot key h s) :
    storedDecision serde s = h.head? := by
  cases h with
  | nil => exact stored_none hkept.file
  | cons p rest => exact stored_fileOf hserde (hkept.members p mem_cons_self).1 hkept.file

theorem Kept.head_valid (hkept : Kept serde boot key h s) : ∀ p, h.head? = some p → p.Valid :=
  fun p hp => (hkept.members p (mem_of_mem_head? hp)).1

section

variable (hserde : Lines serde)
include hserde

theorem Kept.accepted (hkept : Kept serde boot key h s) (hboot : d.bootId = boot)
    (hkey : d.routeKey = key) (haccepts : Accepts h.head? d)
    (hfile : s'.files .route = some (fileOf serde d)) :
    Kept serde boot key (record h (storedDecision serde s')) s' := by
  cases h with
  | nil =>
    have hd : d.Valid := haccepts
    rw [stored_fileOf hserde hd hfile]
    refine ⟨hfile, fun p hp => ?_, trivial⟩
    obtain rfl := mem_singleton.mp hp
    exact ⟨hd, hboot, hkey⟩
  | cons p rest =>
    have hp := (hkept.members p mem_cons_self).1
    by_cases hsame : d = p
    · subst hsame
      rw [stored_fileOf hserde hp hfile]
      have hrecord : record (d :: rest) (some d) = d :: rest := if_pos rfl
      rw [hrecord]
      exact ⟨hfile, hkept.members, hkept.chain⟩
    · have hsucceeds : d.Succeeds p := haccepts.resolve_left hsame
      rw [stored_fileOf hserde hsucceeds.valid hfile]
      have hrecord : record (p :: rest) (some d) = d :: p :: rest := by
        refine if_neg fun heq => hsame ?_
        exact (Option.some.inj heq).symm
      rw [hrecord]
      refine ⟨hfile, fun q hq => ?_, hsucceeds.later, ?_, hkept.chain⟩
      · rcases mem_cons.mp hq with rfl | hq
        · exact ⟨hsucceeds.valid, hboot, hkey⟩
        · exact hkept.members q hq
      · rw [hsucceeds.reference, trusted_eq_inherited hkept.chain]

theorem Kept.unchanged (hkept : Kept serde boot key h s) (hfile : s'.files .route = s.files .route) :
    Kept serde boot key (record h (storedDecision serde s')) s' := by
  have hkept' : Kept serde boot key h s' := ⟨hfile.trans hkept.file, hkept.members, hkept.chain⟩
  rw [hkept'.stored hserde]
  have hrecord : record h h.head? = h := by
    cases h with
    | nil => rfl
    | cons p rest => exact if_pos rfl
  rw [hrecord]
  exact hkept'

/-- **One call keeps the hold.** -/
theorem Kept.call (hkept : Kept serde boot key h s) (hboot : d.bootId = boot)
    (hkey : d.routeKey = key) {o : Outcome Disk String Unit}
    (hexec : Exec machine (d.archive serde) s o) (hfinished : Finished serde d s o.state) :
    Kept serde boot key (record h (storedDecision serde o.state)) o.state := by
  have hmeets := wp_sound (wp_archive hserde hkept.head_valid hkept.file) hexec
  have hleaves : Leaves serde h.head? d (o.state.files .route) := by
    cases o with
    | returned r s' => exact hmeets.1
    | crashed s' => exact hmeets
  rcases hleaves with hsame | ⟨haccepts, hfile⟩ | ⟨hnone, hd, -⟩
  · exact hkept.unchanged hserde (hsame.trans hkept.file.symm)
  · exact hkept.accepted hserde hboot hkey haccepts hfile
  · have habsent : s.files .route = none := by
      rw [hkept.file, hnone]
      rfl
    rcases hfinished habsent with hsame | hfile
    · exact hkept.unchanged hserde (hsame.trans habsent.symm)
    · refine hkept.accepted hserde hboot hkey ?_ hfile
      rw [hnone]
      exact hd

/-- **Every run keeps the hold.** -/
theorem Run.kept (hrun : Run serde boot key (Finished serde) h s) : Kept serde boot key h s := by
  induction hrun with
  | start hfile => exact ⟨hfile, nofun, trivial⟩
  | call _ hboot hkey hexec hfinished ih => exact ih.call hserde hboot hkey hexec hfinished

theorem Kept.held (hkept : Kept serde boot key h s) : Held serde boot key h s := by
  have hmeets : ∀ (d : HistoryDecision) (o : Outcome Disk String Unit),
      Exec machine (d.archive serde) s o →
        o.Meets (fun r s' => Answers serde h.head? d r (s'.files .route))
          (fun s' => Leaves serde h.head? d (s'.files .route)) :=
    fun d o hexec => wp_sound (wp_archive hserde hkept.head_valid hkept.file) hexec
  have hstored := hkept.stored hserde
  have haccepted : ∀ d, Accepts h.head? d → d.Valid := by
    intro d haccepts
    cases hhead : h.head? with
    | none => rw [hhead] at haccepts; exact haccepts
    | some p =>
      rw [hhead] at haccepts
      rcases haccepts with rfl | hsucceeds
      · exact hkept.head_valid d hhead
      · exact hsucceeds.valid
  have hunchanged : ∀ s' : Disk, s'.files .route = h.head?.map (fileOf serde) →
      storedDecision serde s' = storedDecision serde s := by
    intro s' hfile
    rw [storedDecision, storedDecision, hfile, hkept.file]
  refine ⟨hstored, hkept.chain, fun d e s' hexec => ?_, fun d hd o hexec => ?_,
    fun d hboot hkey haccepts r s' hexec => ?_⟩
  · rcases (hmeets d _ hexec).2 with ⟨-, hok, -⟩ | ⟨-, -, hfile⟩
    · cases hok
    · exact hunchanged s' hfile
  · have hhead : h.head? = some d := hstored.symm.trans hd
    have haccepts : Accepts h.head? d := by
      rw [hhead]
      exact Or.inl rfl
    have hleft : storedDecision serde o.state = some d := by
      have hleaves : Leaves serde h.head? d (o.state.files .route) := by
        have ho := hmeets d o hexec
        cases o with
        | returned r s' => exact ho.1
        | crashed s' => exact ho
      rcases hleaves with hsame | ⟨-, hfile⟩ | ⟨hnone, -⟩
      · rw [hunchanged _ hsame, hd]
      · exact stored_fileOf hserde (haccepted d haccepts) hfile
      · rw [hhead] at hnone
        cases hnone
    refine ⟨hleft, ?_⟩
    rintro r s' rfl
    rcases (hmeets d _ hexec).2 with ⟨-, hok, -⟩ | ⟨hrefused, -⟩
    · exact hok
    · exact absurd haccepts hrefused
  · rw [hstored] at haccepts
    rcases (hmeets d _ hexec).2 with ⟨-, hok, hfile⟩ | ⟨hrefused, -⟩
    · exact ⟨hok, stored_fileOf hserde (haccepted d haccepts) hfile⟩
    · exact absurd haccepts hrefused

end

/-- **A history hold cannot be washed out**, and the archive goes on, in every run in which no crash
leaves a first file unfinished. -/
theorem hold_kept (hserde : Lines serde) (hrun : Run serde boot key (Finished serde) h s) :
    Held serde boot key h s :=
  (hrun.kept hserde).held hserde

def readLine (bytes : Bytes) : Option Json :=
  (compact.fromSlice bytes).or
    (if bytes.getLast? = some 10 then compact.fromSlice bytes.dropLast else none)

theorem readLine_toVec {v : Json} (hv : v.plain = true) : readLine (compact.toVec v) = some v := by
  rw [readLine, compact.fromSlice_toVec v hv]
  rfl

def lined : Serde where
  toVec := compact.toVec
  fromSlice := readLine
  fromSlice_toVec _ hv := readLine_toVec hv

theorem compact_line {v : Json} (hv : v.plain = true) :
    compact.fromSlice (compact.toVec v ++ [10]) = none := by
  have hread : readValue ((text v).length + 1) (text v ++ [Char.ofNat 10]) =
      some (v, [Char.ofNat 10]) := by
    refine readValue_text v hv _ _ (Nat.le_succ _) ?_
    intro c hc
    obtain rfl : c = Char.ofNat 10 := by simpa using hc.symm
    decide
  have hback : ((text v).map byteOf).map charOf = text v := by
    rw [map_map]
    refine (map_congr_left fun c hc => ?_).trans (map_id _)
    exact charOf_byteOf (lt_trans (text_lt v hv c hc) (by decide))
  have hchars : (compact.toVec v ++ [10]).map charOf = text v ++ [Char.ofNat 10] := by
    rw [map_append]
    exact congrArg (· ++ [Char.ofNat 10]) hback
  have hlength : (compact.toVec v ++ [10]).length = (text v).length + 1 := by
    rw [length_append]
    exact congrArg (· + 1) (length_map _)
  simp only [compact] at hchars hlength ⊢
  simp [hchars, hlength, hread]

theorem lined_lines : Lines lined where
  compact v _ := length_map _
  ascii v hv b hb := by
    obtain ⟨c, hc, rfl⟩ := mem_map.mp hb
    have hlt := text_lt v hv c hc
    rw [UInt8.lt_iff_toNat_lt]
    have hsmall : (byteOf c).toNat = c.toNat := by
      exact Nat.mod_eq_of_lt (by omega)
    rw [hsmall]
    exact hlt
  newline v hv := by
    have hlast : (compact.toVec v ++ [10]).getLast? = some 10 := getLast?_concat
    have hdrop : (compact.toVec v ++ [10]).dropLast = compact.toVec v :=
      dropLast_concat
    show readLine (compact.toVec v ++ [10]) = some v
    rw [readLine, compact_line hv, if_pos hlast, hdrop]
    exact compact.fromSlice_toVec v hv

def firstDecision : HistoryDecision where
  bootId := replicate 32 0x61
  routeKey := replicate 64 0x62
  requestSha256 := replicate 64 0x31
  workerRunId := replicate 32 0x31
  current := ⟨replicate 32 0x31, replicate 64 0x31, 1, 900000, 100000⟩
  reference := none

theorem firstDecision_valid : firstDecision.Valid := validate_ok.mp (by decide)

def diskWith (file : Option File) : Disk :=
  ⟨some privateDirectory, fun name => if name = .route then file else none⟩

theorem reads_ensure (hdir : s.directory = some privateDirectory) :
    Reads exec torn (.ok ()) ensurePrivateDirectory s := by
  have hstat : exec .statDirectory s = (some privateDirectory, s) := Prod.ext hdir rfl
  refine ⟨rfl, fun _ ht => ht, ?_⟩
  rw [hstat]
  exact reads_private hdir

theorem exec_reply {c : Call} {r : Reply c} {β : Type} {f : Reply c → Prog β}
    {o : Outcome Disk String β} (hr : exec c s = (r, s')) (hf : Exec machine (f r) s' o) :
    Exec machine (call c >>= f) s o := by
  have hstep : machine.step c s r s' := hr
  exact .call hstep hf

theorem put_route (file file' : Option File) :
    (diskWith file).put .route file' = diskWith file' := by
  have hfiles : Function.update (diskWith file).files .route file' = (diskWith file').files := by
    funext name
    cases name <;> rfl
  rw [Disk.put, hfiles]
  rfl

/-- **The first decision is written** to its file. -/
theorem first_archived :
    Exec machine (firstDecision.archive lined) (diskWith none)
      (.returned (.ok ()) (diskWith (some (fileOf lined firstDecision)))) := by
  have hdir : (diskWith none).directory = some privateDirectory := rfl
  have hwp : wp machine
      (fun r s' => r = .ok () ∧ s' = diskWith (some (fileOf lined firstDecision)))
      (fun _ => True) (firstDecision.archive lined) (diskWith none) := by
    rw [archive, validate_ok.mpr firstDecision_valid]
    show wp machine _ _ (ensurePrivateDirectory >>= _) _
    refine Reads.wp_bind (reads_ensure hdir) ?_
    refine wp_reply (exec_stat_none rfl) trivial (fun _ ht => ht) ?_
    have hlist : exec .list (diskWith none) = (0, diskWith none) := rfl
    refine wp_reply hlist trivial (fun _ ht => ht) ?_
    rw [require_true (by decide), publish, encode_line lined_lines firstDecision_valid]
    show wp machine _ _ (requirePrivateDirectory >>= _) _
    refine Reads.wp_bind (reads_private hdir) ?_
    refine wp_reply (exec_stat_none rfl) trivial (fun _ ht => ht) ?_
    refine wp_writeNew rfl trivial (fun _ _ => trivial) ?_
    exact wp_alone_call trivial (fun _ ht => absurd ht id)
      (wp_alone_ret trivial ⟨rfl, put_route _ _⟩)
  obtain ⟨r, s', hexec⟩ : ∃ r s', Exec machine (firstDecision.archive lined) (diskWith none)
      (.returned r s') := exec_returns _ _
  obtain ⟨-, rfl, rfl⟩ := wp_sound hwp hexec
  exact hexec

/-- A later sample below half of the first one, which it refers to. -/
def blockedDecision : HistoryDecision :=
  { firstDecision with
    requestSha256 := replicate 64 0x32
    current := ⟨replicate 32 0x32, replicate 64 0x32, 2, 400000, 90000⟩
    reference := some firstDecision.current }

/-- The sample after it, which refers to the first one too. -/
def thirdDecision : HistoryDecision :=
  { firstDecision with
    requestSha256 := replicate 64 0x33
    current := ⟨replicate 32 0x33, replicate 64 0x33, 3, 880000, 95000⟩
    reference := some firstDecision.current }

theorem blocked_succeeds : blockedDecision.Succeeds firstDecision where
  valid := validate_ok.mp (by decide)
  boot := rfl
  route := rfl
  later := by decide
  distinct := by decide
  reference := by decide

theorem third_succeeds : thirdDecision.Succeeds blockedDecision where
  valid := validate_ok.mp (by decide)
  boot := rfl
  route := rfl
  later := by decide
  distinct := by decide
  reference := by decide

/-- What a crash inside the write of the blocked decision leaves. -/
def tornDisk : Disk :=
  (diskWith (some (fileOf lined firstDecision))).put .next
    (some ⟨privateFile, (blockedDecision.line lined).take 100⟩)

/-- **A crash inside the write** to `.history-next`. -/
theorem replace_torn {bytes start : Bytes} {f : Unit → Prog Unit} (hnext : s.files .next = none)
    (hstart : start <+: bytes) :
    Exec machine (replacePrivateFile bytes >>= f) s
      (.crashed (s.put .next (some ⟨privateFile, start⟩))) := by
  have hcreated : exec (.createNew .next) s = (true, s.put .next (some ⟨privateFile, []⟩)) := by
    simp [exec, hnext]
  have htorn : torn (.write .next bytes) (s.put .next (some ⟨privateFile, []⟩))
      (s.put .next (some ⟨privateFile, start⟩)) :=
    ⟨start, hstart, by simp [Disk.append, Disk.put]⟩
  exact exec_reply (exec_stat_none hnext) (exec_reply hcreated (.torn htorn))

/-- **A successor** is written over the stored decision. -/
theorem exec_succeed (hserde : Lines serde) (hp : p.Valid) (hsucceeds : d.Succeeds p)
    {o : Outcome Disk String Unit}
    (hexec : Exec machine (replacePrivateFile (d.line serde) >>= fun _ => call .syncDirectory) s o) :
    Exec machine (d.succeedStored serde p) s o := by
  have hprojected := (projected_eq hsucceeds.valid hp hsucceeds.boot hsucceeds.route
    hsucceeds.distinct hsucceeds.later).1 hsucceeds
  have hbound : (p.bootId == d.bootId && p.routeKey == d.routeKey) = true := by
    simp [hsucceeds.boot, hsucceeds.route]
  rw [succeedStored, require_true hbound, if_neg hsucceeds.distinct,
    require_true (decide_eq_true hsucceeds.later), hprojected]
  show Exec machine (require (d == d) _ >>= _) s o
  rw [require_true (by simp), encode_line hserde hsucceeds.valid]
  exact hexec

theorem blocked_torn :
    Exec machine (blockedDecision.archive lined) (diskWith (some (fileOf lined firstDecision)))
      (.crashed tornDisk) := by
  have hdir : (diskWith (some (fileOf lined firstDecision))).directory = some privateDirectory := rfl
  rw [archive, validate_ok.mpr blocked_succeeds.valid]
  refine (reads_ensure hdir).runs.bind (exec_reply (exec_stat_some rfl) ?_)
  refine (reads_decision lined_lines hdir firstDecision_valid rfl).runs.bind ?_
  exact exec_succeed lined_lines firstDecision_valid blocked_succeeds
    (replace_torn rfl (List.take_prefix _ _))

/-- **A call that is accepted** goes on with a run. -/
theorem Run.archived (d : HistoryDecision) (hrun : Run lined boot key (Finished lined) h s)
    (hboot : d.bootId = boot) (hkey : d.routeKey = key) (haccepts : Accepts h.head? d) :
    ∃ s', Exec machine (d.archive lined) s (.returned (.ok ()) s') ∧
      Run lined boot key (Finished lined) (record h (some d)) s' := by
  have hkept := hrun.kept lined_lines
  obtain ⟨r, s', hexec⟩ : ∃ r s', Exec machine (d.archive lined) s (.returned r s') :=
    exec_returns _ _
  have hwp := wp_archive (d := d) lined_lines hkept.head_valid hkept.file
  obtain ⟨-, hok, hfile⟩ := (wp_sound hwp hexec).2.resolve_right fun hrefused =>
    hrefused.1 haccepts
  subst hok
  have hstored := (hkept.held lined_lines).next d hboot hkey
    (by rwa [hkept.stored lined_lines]) (.ok ()) s' hexec
  have hcall := Run.call hrun hboot hkey hexec fun _ => .inr hfile
  rw [Outcome.state, hstored.2] at hcall
  exact ⟨s', hexec, hcall⟩

/-- **A blocked decision** after a crash inside its first write, the same one again, and the one after
it, which refers to the first sample. -/
theorem hold_kept_blocked :
    blockedDecision.blocked = true ∧ ∃ s₁ s₂ s₃,
      Exec machine (firstDecision.archive lined) (diskWith none)
        (.returned (.ok ()) (diskWith (some (fileOf lined firstDecision)))) ∧
      Exec machine (blockedDecision.archive lined) (diskWith (some (fileOf lined firstDecision)))
        (.crashed tornDisk) ∧
      Exec machine (blockedDecision.archive lined) tornDisk (.returned (.ok ()) s₁) ∧
      Exec machine (blockedDecision.archive lined) s₁ (.returned (.ok ()) s₂) ∧
      Exec machine (thirdDecision.archive lined) s₂ (.returned (.ok ()) s₃) ∧
      Held lined firstDecision.bootId firstDecision.routeKey
        [thirdDecision, blockedDecision, firstDecision] s₃ := by
  have hstart : Run lined firstDecision.bootId firstDecision.routeKey (Finished lined) []
      (diskWith none) := .start rfl
  have hstored : storedDecision lined (diskWith (some (fileOf lined firstDecision))) =
      some firstDecision := stored_fileOf lined_lines firstDecision_valid rfl
  have hfirst := Run.call hstart rfl rfl first_archived fun _ => .inr rfl
  rw [Outcome.state, hstored] at hfirst
  have htorn : storedDecision lined tornDisk = some firstDecision :=
    stored_fileOf lined_lines firstDecision_valid rfl
  have hcrashed := Run.call hfirst (rfl : blockedDecision.bootId = _) rfl blocked_torn
    fun habsent => by cases habsent
  rw [Outcome.state, htorn] at hcrashed
  obtain ⟨s₁, hblocked, hrun₁⟩ := hcrashed.archived blockedDecision rfl rfl (.inr blocked_succeeds)
  obtain ⟨s₂, hrepeated, hrun₂⟩ := hrun₁.archived blockedDecision rfl rfl (.inl rfl)
  obtain ⟨s₃, hthird, hrun₃⟩ := hrun₂.archived thirdDecision rfl rfl (.inr third_succeeds)
  exact ⟨rfl, s₁, s₂, s₃, first_archived, blocked_torn, hblocked, hrepeated, hthird,
    hold_kept lined_lines hrun₃⟩

/-- **A crash right after the first file is created** leaves an empty file. -/
theorem torn_reached :
    Run lined firstDecision.bootId firstDecision.routeKey (fun _ _ _ => True) []
      (diskWith (some ⟨privateFile, []⟩)) := by
  have hstart : Run lined firstDecision.bootId firstDecision.routeKey (fun _ _ _ => True) []
      (diskWith none) := .start rfl
  have hdir : (diskWith none).directory = some privateDirectory := rfl
  have hput : (diskWith none).put .route (some ⟨privateFile, []⟩) =
      diskWith (some ⟨privateFile, []⟩) := put_route _ _
  have hcreate : Exec machine (writeNewPrivateFile .route (firstDecision.line lined) >>= fun _ =>
      call .syncDirectory) (diskWith none) (.crashed (diskWith (some ⟨privateFile, []⟩))) := by
    have hcreated : exec (.createNew .route) (diskWith none) =
        (true, diskWith (some ⟨privateFile, []⟩)) := by
      rw [← hput]
      rfl
    exact exec_reply hcreated (.crash _ _)
  have hpublish : Exec machine (firstDecision.publish lined) (diskWith none)
      (.crashed (diskWith (some ⟨privateFile, []⟩))) := by
    rw [publish, encode_line lined_lines firstDecision_valid]
    refine (reads_private hdir).runs.bind ?_
    exact exec_reply (exec_stat_none rfl) hcreate
  have hexec : Exec machine (firstDecision.archive lined) (diskWith none)
      (.crashed (diskWith (some ⟨privateFile, []⟩))) := by
    refine (reads_ensure hdir).runs.bind ?_
    have hlist : exec .list (diskWith none) = (0, diskWith none) := rfl
    refine exec_reply (exec_stat_none rfl) (exec_reply hlist ?_)
    rw [require_true (by decide)]
    exact hpublish
  exact .call hstart rfl rfl hexec trivial

/-- **And the archive is closed from then on**: a first decision is refused. -/
theorem torn_not_held :
    ∃ s, Run lined firstDecision.bootId firstDecision.routeKey (fun _ _ _ => True) [] s ∧
      ¬Held lined firstDecision.bootId firstDecision.routeKey [] s := by
  refine ⟨_, torn_reached, fun hheld => ?_⟩
  have hdir : (diskWith (some ⟨privateFile, []⟩)).directory = some privateDirectory := rfl
  have hdecode : decode lined [] = .error "history JSON is invalid" := rfl
  have hstored : storedDecision lined (diskWith (some ⟨privateFile, []⟩)) = none := by
    show (decode lined []).toOption = none
    rw [hdecode]
    rfl
  have hdecision : Reads exec torn (.error "history JSON is invalid") (readDecision lined)
      (diskWith (some ⟨privateFile, []⟩)) := by
    refine .bind (reads_private hdir) (Reads.bind (reads_file rfl (Nat.zero_le _)) ?_)
    exact hdecode
  have hreads : Reads exec torn (.error "history JSON is invalid") (firstDecision.archive lined)
      (diskWith (some ⟨privateFile, []⟩)) := by
    rw [archive, validate_ok.mpr firstDecision_valid]
    show Reads exec torn _ (ensurePrivateDirectory >>= _) _
    refine .bind (reads_ensure hdir) (reads_stat .route ?_)
    exact .bind_error hdecision
  obtain ⟨r, s', hexec⟩ : ∃ r s', Exec machine (firstDecision.archive lined)
      (diskWith (some ⟨privateFile, []⟩)) (.returned r s') := exec_returns _ _
  have hwp : wp machine (fun r _ => r = .error "history JSON is invalid") (fun _ => True)
      (firstDecision.archive lined) (diskWith (some ⟨privateFile, []⟩)) := hreads.wp trivial rfl
  have herror := (wp_sound hwp hexec).2
  have hnext := hheld.next firstDecision rfl rfl
  rw [hstored] at hnext
  have hok := (hnext firstDecision_valid r s' hexec).1
  rw [herror] at hok
  cases hok

end CakeAutorate.History
