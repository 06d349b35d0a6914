/-
# The reply to a query

The standard reply copies the question and gives an address record for each address, whose owner
is a pointer to the question.  The codec reads it back when the owner's name is read within the
bound of its loop, where the pointer counts as a step: so a host of 127 labels, which a query is
made for and whose question is read, has no reply that is accepted.
-/

import CakeAutorate.RoutedDns.Answer

namespace CakeAutorate.RoutedDns

open Protocol List Nat UInt16

/-- `u32::to_be_bytes`. -/
def ttlBytes (ttl : UInt32) : Bytes :=
  [(ttl >>> 24).toUInt8, (ttl >>> 16).toUInt8, (ttl >>> 8).toUInt8, ttl.toUInt8]

def answerRecord (ttl : UInt32) (ip : Ipv4Addr) : Bytes :=
  [0xc0, 12, 0, 1, 0, 1] ++ ttlBytes ttl ++ [0, 4, ip.a, ip.b, ip.c, ip.d]

def reply (ttl : UInt32) (request : Bytes) (ips : List Ipv4Addr) : Bytes :=
  request.take 2 ++ [0x81, 0x80] ++ (request.drop 4).take 2 ++ beBytes (ofNat ips.length)
    ++ request.drop 8 ++ ips.flatMap (answerRecord ttl)

def wireName (labels : List Bytes) : Bytes := labels.flatMap wireLabel ++ [0]

theorem length_wireLabel (label : Bytes) : (wireLabel label).length = label.length + 1 := by
  rw [wireLabel, length_cons, length_map]

theorem length_wire_splitOn (host : Bytes) (dot : UInt8) :
    ((host.splitOn dot).flatMap wireLabel).length = host.length + 1 := by
  induction host with
  | nil => rfl
  | cons b host ih =>
    rw [splitOn_cons_eq_if_modifyHead]
    split
    · rw [flatMap_cons, length_append, ih, length_wireLabel, length_nil, length_cons]
      omega
    · cases hlabels : host.splitOn dot with
      | nil => exact absurd hlabels (splitOn_ne_nil dot host)
      | cons label labels =>
        rw [hlabels, flatMap_cons, length_append, length_wireLabel] at ih
        rw [modifyHead_cons, flatMap_cons, length_append, length_wireLabel,
          length_cons, length_cons]
        omega

def Fits (label : Bytes) : Prop := 1 ≤ label.length ∧ label.length ≤ 63

theorem fits_of_good {label : Bytes} (h : badLabel label = false) : Fits label := by
  simp only [badLabel, Bool.or_eq_false_iff, decide_eq_false_iff_not] at h
  obtain ⟨⟨⟨⟨hempty, hlong⟩, _⟩, _⟩, _⟩ := h
  constructor
  · cases label
    · cases hempty
    · exact succ_le_succ (zero_le _)
  · exact not_lt.mp hlong

theorem two_mul_length_le {labels : List Bytes} (h : ∀ label ∈ labels, Fits label) :
    2 * labels.length ≤ (labels.flatMap wireLabel).length := by
  induction labels with
  | nil => exact le_rfl
  | cons label labels ih =>
    have hlabel := (h label mem_cons_self).1
    have htail := ih fun l hl => h l (mem_cons_of_mem _ hl)
    rw [flatMap_cons, length_append, length_wireLabel, length_cons]
    omega

/-- **What a query is made of.** -/
theorem query_ok {host request : Bytes} {id : UInt16} (h : query host id = .ok request) :
    request = queryHeader id ++ wireName (hostLabels host) ++ [0, 1, 0, 1] ∧
      (∀ label ∈ hostLabels host, Fits label) ∧
      ((hostLabels host).flatMap wireLabel).length ≤ 254 := by
  unfold query at h
  dsimp only at h
  generalize hplain : (if host.getLast? = some 0x2e then host.dropLast else host) = plain at h
  have hsplit : hostLabels host = plain.splitOn 0x2e := by rw [hostLabels, hplain]
  split at h
  · cases h
  · rename_i hbounds
    split at h
    · cases h
    · rename_i hgood
      refine ⟨?_, fun label hlabel => fits_of_good ?_, ?_⟩
      · rw [← Except.ok.inj h, wireName]
        simp only [append_assoc]
        rfl
      · rw [Bool.not_eq_true] at hgood
        exact Bool.eq_false_iff.mpr fun hbad => any_eq_false.mp hgood label hlabel hbad
      · have hlong := (not_or.mp hbounds).2
        rw [hsplit, length_wire_splitOn]
        omega

theorem lower_lower : ∀ b : UInt8, lower (lower b) = lower b := Wire.forall_byte (by decide +kernel)

theorem lower_label (label : Bytes) : (label.map lower).map lower = label.map lower := by
  rw [map_map]
  exact map_congr_left fun b _ => lower_lower b

variable {at_ : ℕ}

theorem byte_of_drop {packet rest : Bytes} {b : UInt8} (h : packet.drop at_ = b :: rest) :
    byte packet at_ = .ok b := by
  have hget : (packet.drop at_)[0]? = some b := by rw [h]; rfl
  rw [getElem?_drop, add_zero] at hget
  exact byte_ok.mpr hget

theorem drop_of_drop {packet front rest : Bytes} {at_ : ℕ} (h : packet.drop at_ = front ++ rest) :
    packet.drop (at_ + front.length) = rest := by
  rw [← drop_drop, h, drop_left]

theorem length_of_drop {packet front rest : Bytes} (hne : front ≠ [])
    (h : packet.drop at_ = front ++ rest) : at_ + front.length ≤ packet.length := by
  have hlength := congrArg List.length h
  rw [length_drop, length_append] at hlength
  have hpos := length_pos_iff.mpr hne
  omega

theorem size_of_fits {label : Bytes} (h : Fits label) :
    (UInt8.ofNat label.length).toNat = label.length ∧ UInt8.ofNat label.length ≤ 63 ∧
      UInt8.ofNat label.length ≠ 0 := by
  obtain ⟨hpos, hle⟩ := h
  have hnat : (UInt8.ofNat label.length).toNat = label.length :=
    UInt8.toNat_ofNat_of_lt' (by show label.length < 256; omega)
  refine ⟨hnat, UInt8.le_iff_toNat_le.mpr ?_, fun hzero => ?_⟩
  · rw [hnat]
    exact hle
  · rw [hzero] at hnat
    have : (0 : ℕ) = label.length := hnat
    omega

/-- **The labels of a name are read back**, when there is a step for each and one for the root. -/
theorem nameFrom_labels {packet : Bytes} {labels : List Bytes}
    (hlabels : ∀ label ∈ labels, Fits label) {bound at_ cursor : ℕ} {jumped : Bool}
    {result rest : Bytes} (hdrop : packet.drop at_ = wireName labels ++ rest)
    (hlong : result.length + (wireName labels).length ≤ 255) :
    nameFrom packet bound at_ jumped cursor result =
      if labels.length < bound then
        .ok (result ++ wireName labels, if jumped then cursor else at_ + (wireName labels).length)
      else .error invalid := by
  induction labels generalizing bound at_ cursor result with
  | nil =>
    cases bound with
    | zero => rfl
    | succ bound =>
      have hslice : slice packet (at_ + 1) 0 = .ok [] := by
        refine slice_ok.mpr ⟨?_, rfl⟩
        exact length_of_drop (cons_ne_nil 0 []) hdrop
      have hlength : ¬result.length + (0 : UInt8).toNat + 1 > 255 := by
        have : (wireName []).length = 1 := rfl
        have : (0 : UInt8).toNat = 0 := rfl
        omega
      rw [if_pos (show [].length < bound + 1 from succ_pos bound), nameFrom, byte_of_drop hdrop]
      dsimp only [bind, Except.bind]
      rw [if_neg (by decide), if_pos (by decide), if_neg hlength]
      rw [show (0 : UInt8).toNat = 0 from rfl, hslice]
      dsimp only
      rfl
  | cons label labels ih =>
    cases bound with
    | zero => rfl
    | succ bound =>
      have hfits := hlabels label mem_cons_self
      obtain ⟨hnat, hsmall, hne⟩ := size_of_fits hfits
      have hwire : wireName (label :: labels) = wireLabel label ++ wireName labels := by
        rw [wireName, flatMap_cons, append_assoc]
        rfl
      rw [hwire, append_assoc] at hdrop
      rw [hwire, length_append, length_wireLabel] at hlong
      have hpos : 1 ≤ (wireName labels).length := by
        rw [wireName, length_append]
        exact le_add_left _ _
      have hnext : packet.drop (at_ + 1 + label.length) = wireName labels ++ rest := by
        have h := drop_of_drop hdrop
        rw [length_wireLabel] at h
        rw [← h]
        congr 1
        omega
      have hslice : slice packet (at_ + 1) label.length = .ok (label.map lower) := by
        have hfit : at_ + (wireLabel label).length ≤ packet.length :=
          length_of_drop (cons_ne_nil _ _) hdrop
        rw [length_wireLabel] at hfit
        refine slice_ok.mpr ⟨by omega, ?_⟩
        rw [← drop_drop, hdrop, wireLabel, cons_append, drop_one,
          tail_cons, take_left' (length_map _)]
      rw [nameFrom, byte_of_drop hdrop]
      dsimp only [bind, Except.bind]
      rw [if_neg (pointer_not_small _ hsmall), if_pos hsmall, hnat, if_neg (by omega), hslice]
      dsimp only
      rw [if_neg hne, lower_label, ih (fun l hl => hlabels l (mem_cons_of_mem _ hl)) hnext]
      · rw [hwire, length_append, length_wireLabel, length_cons]
        by_cases hbound : labels.length < bound
        · rw [if_pos hbound, if_pos (succ_lt_succ hbound)]
          rw [append_assoc]
          cases jumped
          · simp only [Bool.false_eq_true, if_false]
            refine congrArg Except.ok (Prod.ext rfl ?_)
            omega
          · rfl
        · rw [if_neg hbound, if_neg fun h => hbound (lt_of_succ_lt_succ h)]
      · rw [length_append, length_cons, length_map]
        omega

theorem ok_bind {α β : Type} {x : Except Failure α} {a : α} (h : x = .ok a)
    (k : α → Except Failure β) : (x >>= k) = k a := by
  rw [h]
  rfl

theorem word_of_drop {packet rest : Bytes} {high low : UInt8}
    (h : packet.drop at_ = high :: low :: rest) :
    word packet at_ = .ok (256 * high.toNat + low.toNat) := by
  have hhigh : (packet.drop at_)[0]? = some high := by rw [h]; rfl
  have hlow : (packet.drop at_)[1]? = some low := by rw [h]; rfl
  rw [getElem?_drop] at hhigh hlow
  rw [add_zero] at hhigh
  rw [word, hhigh, hlow]

theorem length_answerRecord (ttl : UInt32) (ip : Ipv4Addr) : (answerRecord ttl ip).length = 16 :=
  rfl

section Answers

variable {packet question : Bytes} {labels : List Bytes} {ttl : UInt32}

section

variable (hlabels : ∀ label ∈ labels, Fits label)
  (hquestion : packet.drop 12 = wireName labels ++ question)
  (hlong : (wireName labels).length ≤ 255) (hat : 12 < at_)
include hlabels hquestion hlong hat

/-- **A pointer to the question** is read when a step is left for it. -/
theorem name_pointer {rest : Bytes} (hdrop : packet.drop at_ = 0xc0 :: 12 :: rest) :
    name packet at_ =
      if labels.length < 127 then .ok (wireName labels, at_ + 2) else .error invalid := by
  have hword : word packet at_ = .ok 49164 := word_of_drop hdrop
  have htarget : pointerTarget 49164 = 12 := by decide
  show nameFrom packet (127 + 1) at_ false at_ [] = _
  rw [nameFrom, byte_of_drop hdrop]
  dsimp only [bind, Except.bind]
  rw [if_pos (by decide), hword]
  dsimp only
  rw [htarget, if_neg (by omega), nameFrom_labels hlabels hquestion]
  · simp only [nil_append, if_true]
    rfl
  · rw [length_nil, zero_add]
    exact hlong

theorem readRecord_answer {ip : Ipv4Addr} {rest : Bytes}
    (hdrop : packet.drop at_ = answerRecord ttl ip ++ rest) :
    readRecord packet at_ =
      if labels.length < 127 then .ok (⟨wireName labels, 1, 1, at_ + 12, 4⟩, at_ + 16)
      else .error invalid := by
  unfold readRecord
  rw [name_pointer hlabels hquestion hlong hat hdrop]
  by_cases hbound : labels.length < 127
  · have hkind : word packet (at_ + 2) = .ok 1 :=
      word_of_drop (@drop_of_drop packet [0xc0, 12] _ _ hdrop)
    have hclass : word packet (at_ + 2 + 2) = .ok 1 :=
      word_of_drop (@drop_of_drop packet [0xc0, 12, 0, 1] _ _ hdrop)
    have hlength : word packet (at_ + 2 + 8) = .ok 4 :=
      word_of_drop (@drop_of_drop packet ([0xc0, 12, 0, 1, 0, 1] ++ ttlBytes ttl) _ _ hdrop)
    have hfits : at_ + 16 ≤ packet.length := length_of_drop (cons_ne_nil _ _) hdrop
    rw [if_pos hbound, if_pos hbound]
    dsimp only [bind, Except.bind]
    rw [hkind, hclass, hlength]
    dsimp only
    rw [require_ok (u := ()).mpr (decide_eq_true hfits)]
    rfl
  · rw [if_neg hbound, if_neg hbound]
    rfl

end

theorem read_answer (found : Found) {ip : Ipv4Addr} {rest : Bytes}
    (hdrop : packet.drop at_ = answerRecord ttl ip ++ rest) :
    found.read packet ⟨wireName labels, 1, 1, at_ + 12, 4⟩ =
      .ok { found with addresses := found.addresses ++ [(wireName labels, ip)] } := by
  have hdata : packet.drop (at_ + 12) = [ip.a, ip.b, ip.c, ip.d] ++ rest :=
    @drop_of_drop packet ([0xc0, 12, 0, 1, 0, 1] ++ ttlBytes ttl ++ [0, 4]) _ _ hdrop
  have hfour : (packet.drop (at_ + 12)).take 4 = [ip.a, ip.b, ip.c, ip.d] := by
    rw [hdata]
    rfl
  obtain ⟨ha, hb, hc, hd⟩ := take_four.mp hfour
  unfold Found.read
  rw [index_ok.mpr ha, index_ok.mpr hb, index_ok.mpr hc, index_ok.mpr hd]
  rfl

/-- **The records of a reply are read back.** -/
theorem readRecords_answers (hlabels : ∀ label ∈ labels, Fits label)
    (hquestion : packet.drop 12 = wireName labels ++ question)
    (hlong : (wireName labels).length ≤ 255) (hbound : labels.length < 127) {ips : List Ipv4Addr}
    (hat : 12 < at_) (found : Found) (hdrop : packet.drop at_ = ips.flatMap (answerRecord ttl)) :
    readRecords packet ips.length ips.length at_ found =
      .ok ({ found with addresses := found.addresses ++ ips.map fun ip => (wireName labels, ip) },
        at_ + 16 * ips.length) := by
  induction ips generalizing at_ found with
  | nil =>
    rw [map_nil, append_nil]
    rfl
  | cons ip ips ih =>
    have hnext : packet.drop (at_ + 16) = ips.flatMap (answerRecord ttl) := drop_of_drop hdrop
    rw [length_cons, readRecords, readRecord_answer hlabels hquestion hlong hat hdrop,
      if_pos hbound]
    dsimp only [bind, Except.bind]
    rw [if_pos (succ_pos _), read_answer found hdrop]
    dsimp only
    rw [Nat.add_sub_cancel, ih (by omega) _ hnext]
    refine congrArg Except.ok (Prod.ext ?_ ?_)
    · dsimp only
      rw [append_assoc, map_cons]
      rfl
    · show at_ + 16 + 16 * ips.length = at_ + 16 * (ips.length + 1)
      omega

end Answers

theorem toNat_beBytes (n : UInt16) : 256 * (n >>> 8).toUInt8.toNat + n.toUInt8.toNat = n.toNat := by
  have hlt := n.toNat_lt
  rw [UInt16.toNat_toUInt8, UInt16.toNat_toUInt8, UInt16.toNat_shiftRight]
  rw [show (8 : UInt16).toNat % 16 = 8 from rfl, shiftRight_eq_div_pow]
  omega

theorem reply_eq {id : UInt16} {labels : List Bytes} (ttl : UInt32) (ips : List Ipv4Addr) :
    reply ttl (queryHeader id ++ wireName labels ++ [0, 1, 0, 1]) ips =
      (id >>> 8).toUInt8 :: id.toUInt8 :: 0x81 :: 0x80 :: 0 :: 1 ::
        (ofNat ips.length >>> 8).toUInt8 :: (ofNat ips.length).toUInt8 ::
          0 :: 0 :: 0 :: 0 ::
            (wireName labels ++ ([0, 1, 0, 1] ++ ips.flatMap (answerRecord ttl))) := by
  rw [← append_assoc (wireName labels)]
  rfl

theorem length_flatMap_answerRecord (ttl : UInt32) (ips : List Ipv4Addr) :
    (ips.flatMap (answerRecord ttl)).length = 16 * ips.length := by
  induction ips with
  | nil => rfl
  | cons ip ips ih =>
    rw [flatMap_cons, length_append, ih, length_answerRecord, length_cons]
    omega

theorem walk_answers {question : Bytes} {ips : List Ipv4Addr} (hne : ips ≠ [])
    (hle : ips.length ≤ 32) :
    walk { addresses := ips.map fun ip => (question, ip) } 9 question [] = .ok (normal ips) := by
  have haddresses : addressesOf { addresses := ips.map fun ip => (question, ip) } question
      = normal ips := by
    have hfilter : (ips.map fun ip => (question, ip)).filter (fun p => p.1 = question)
        = ips.map fun ip => (question, ip) :=
      filter_eq_self.mpr fun p hp => by
        obtain ⟨ip, _, rfl⟩ := mem_map.mp hp
        exact decide_eq_true rfl
    rw [addressesOf, hfilter, map_map]
    exact congrArg normal (map_id ips)
  have hnonempty : (normal ips).isEmpty = false := by
    obtain ⟨ip, hip⟩ := exists_mem_of_ne_nil ips hne
    exact isEmpty_eq_false_iff.mpr (ne_nil_of_mem (mem_normal.mpr hip))
  show (if _ then _ else _) = _
  rw [haddresses, hnonempty, if_neg]
  rintro (hfalse | hlong)
  · cases hfalse
  · exact absurd (length_normal_le ips) (by omega)

/-- **What the reply is read as.** -/
theorem answer_reply {id : UInt16} {labels : List Bytes}
    (hlabels : ∀ label ∈ labels, Fits label) (hlong : (labels.flatMap wireLabel).length ≤ 254)
    (ttl : UInt32) {ips : List Ipv4Addr} (hne : ips ≠ []) (hle : ips.length ≤ 32) :
    answer (reply ttl (queryHeader id ++ wireName labels ++ [0, 1, 0, 1]) ips)
        (queryHeader id ++ wireName labels ++ [0, 1, 0, 1]) =
      if labels.length < 127 then .ok (normal ips) else .error invalid := by
  have hwire : (wireName labels).length = (labels.flatMap wireLabel).length + 1 := by
    rw [wireName, length_append]
    rfl
  have hcount := two_mul_length_le hlabels
  have hrecords := length_flatMap_answerRecord ttl ips
  have hn : (ofNat ips.length).toNat = ips.length :=
    toNat_ofNat_of_lt' (by show ips.length < 65536; omega)
  generalize hrequest : queryHeader id ++ wireName labels ++ [0, 1, 0, 1] = request
  have hreply := @reply_eq id labels ttl ips
  rw [hrequest] at hreply
  generalize reply ttl request ips = packet at hreply
  have hlength : packet.length = 12 + ((wireName labels).length + (4 + 16 * ips.length)) := by
    rw [hreply]
    simp only [length_cons, length_append, hrecords, length_nil]
    omega
  have hasked : request.length = 12 + (wireName labels).length + 4 := by
    rw [← hrequest, length_append, length_append]
    rfl
  have hdrop :
    packet.drop 12 = wireName labels ++ ([0, 1, 0, 1] ++ ips.flatMap (answerRecord ttl)) := by
    rw [hreply]
    rfl
  have hbehind := drop_of_drop hdrop
  have hanswers : packet.drop (12 + (wireName labels).length + 4) =
      ips.flatMap (answerRecord ttl) := drop_of_drop hbehind
  have hname : name packet 12 = .ok (wireName labels, 12 + (wireName labels).length) := by
    have h := @nameFrom_labels packet labels hlabels 128 12 12 false [] _ hdrop (by simp; omega)
    rw [if_pos (by omega)] at h
    exact h
  have hrequested : requestName request = .ok (wireName labels) := by
    unfold requestName
    have hname : request.drop 12 = wireName labels ++ [0, 1, 0, 1] := by
      rw [← hrequest, append_assoc]
      rfl
    rw [if_pos ⟨by omega, by omega⟩, hname, take_left' (by omega)]
  have hid : word packet 0 = word request 0 := by
    rw [hreply, ← hrequest]
    rfl
  obtain ⟨w, hw⟩ : ∃ w, word request 0 = .ok w := by
    rw [← hrequest]
    exact ⟨_, rfl⟩
  have hflags : word packet 2 = .ok 0x8180 := by
    rw [hreply]
    rfl
  have hquestions : word packet 4 = .ok 1 := by
    rw [hreply]
    rfl
  have hcounted : word packet 6 = .ok ips.length := by
    rw [hreply]
    exact congrArg Except.ok ((toNat_beBytes _).trans hn)
  have hauthorities : word packet 8 = .ok 0 := by
    rw [hreply]
    rfl
  have hadditional : word packet 10 = .ok 0 := by
    rw [hreply]
    rfl
  have hsize : require (decide (12 ≤ packet.length ∧ packet.length ≤ maxPacket)) = .ok () :=
    require_ok.mpr (decide_eq_true ⟨by omega, by show packet.length ≤ 4096; omega⟩)
  have hrequestSize : require (decide (17 ≤ request.length)) = .ok () :=
    require_ok.mpr (decide_eq_true (by omega))
  have htotal : require (decide (ips.length + 0 + 0 ≤ maxRecords)) = .ok () :=
    require_ok.mpr (decide_eq_true (by show ips.length + 0 + 0 ≤ 64; omega))
  have hclass : (packet.drop (12 + (wireName labels).length)).take 4 = [0, 1, 0, 1] := by
    rw [hbehind]
    rfl
  have hshape : require (wireName labels == wireName labels &&
      (packet.drop (12 + (wireName labels).length)).take 4 == [0, 1, 0, 1]) = .ok () :=
    require_ok.mpr (by rw [hclass, beq_self_eq_true, beq_self_eq_true]; rfl)
  refine (ok_bind hsize _).trans <| (ok_bind hrequestSize _).trans <|
    (ok_bind (hid.trans hw) _).trans <| (ok_bind hw _).trans <|
    (ok_bind (require_ok (u := ()) |>.mpr (beq_self_eq_true w)) _).trans <| (ok_bind hflags _).trans <|
    (ok_bind (@require_ok true () |>.mpr rfl) _).trans <| (ok_bind hquestions _).trans <|
    (ok_bind (@require_ok true () |>.mpr rfl) _).trans <| (ok_bind hcounted _).trans <|
    (ok_bind hauthorities _).trans <| (ok_bind hadditional _).trans <|
    (ok_bind htotal _).trans <| (ok_bind hname _).trans <| (ok_bind hrequested _).trans <|
    (ok_bind hshape _).trans ?_
  by_cases hbound : labels.length < 127
  · have hread := readRecords_answers hlabels hdrop (by omega) hbound (by omega) {} hanswers
    have hend : require (decide (12 + (wireName labels).length + 4 + 16 * ips.length
        = packet.length)) = .ok () := require_ok.mpr (decide_eq_true (by omega))
    rw [if_pos hbound]
    exact (ok_bind hread _).trans <| (ok_bind hend _).trans <| walk_answers hne hle
  · -- The first owner is not read within the bound.
    obtain ⟨ip, rest, rfl⟩ := exists_cons_of_ne_nil hne
    have hfirst := readRecord_answer hlabels hdrop (by omega) (by omega) hanswers
    rw [if_neg hbound] at hfirst ⊢
    show (readRecords packet (rest.length + 1) (rest.length + 1) _ _ >>= _) = _
    rw [readRecords, hfirst]
    rfl

def Accepted (ttl : UInt32) (ips : List Ipv4Addr) (request : Bytes) : Prop :=
  ∃ list, answer (reply ttl request ips) request = .ok list ∧ ∀ ip, ip ∈ list ↔ ip ∈ ips

/-- **The codec of a query**: what is accepted for it is answered by its records, nothing panics,
and the standard reply is accepted just when the host has at most 126 labels. -/
theorem query_answered {host request : Bytes} {id : UInt16} (hquery : query host id = .ok request)
    (ttl : UInt32) {ips : List Ipv4Addr} (hne : ips ≠ []) (hle : ips.length ≤ 32) :
    (∀ packet list, answer packet request = .ok list → Answered packet request list) ∧
      (∀ packet, answer packet request ≠ .error .panicked) ∧
      (Accepted ttl ips request ↔ (hostLabels host).length ≤ 126) := by
  refine ⟨fun packet list h => answer_sound h, fun packet => answer_safe packet request, ?_⟩
  obtain ⟨rfl, hlabels, hlong⟩ := query_ok hquery
  have hanswer := @answer_reply id _ hlabels hlong ttl _ hne hle
  constructor
  · rintro ⟨list, hlist, _⟩
    by_contra hbound
    rw [if_neg (by omega)] at hanswer
    rw [hanswer] at hlist
    cases hlist
  · intro hbound
    rw [if_pos (by omega)] at hanswer
    exact ⟨normal ips, hanswer, fun ip => mem_normal⟩

/-- The reply with addresses of `example.test`, one of them twice. -/
theorem example_answered :
    Accepted 60 [⟨198, 51, 100, 7⟩, ⟨192, 0, 2, 1⟩, ⟨198, 51, 100, 7⟩] (queryHeader 42 ++
      wireName ["example".toUTF8.toList, "test".toUTF8.toList] ++ [0, 1, 0, 1]) :=
  (@query_answered "example.test".toUTF8.toList _ 42 (by decide +kernel) 60 _
    (cons_ne_nil _ _) (by decide)).2.2.mpr (by decide +kernel)

def longestHost : Bytes := (List.replicate 126 [0x61, 0x2e]).flatten ++ [0x61]

/-- **Its query is made, and its reply is refused.** -/
theorem longest_host_refused :
    ∃ request, query longestHost 7 = .ok request ∧ ¬Accepted 60 [⟨192, 0, 2, 1⟩] request := by
  have hquery : query longestHost 7 =
      .ok (queryHeader 7 ++ (List.replicate 127 [1, 0x61]).flatten ++ [0, 0, 1, 0, 1]) := by
    decide +kernel
  refine ⟨_, hquery, ?_⟩
  rintro ⟨list, hlist, _⟩
  have hrefused : answer (reply 60 (queryHeader 7 ++ (List.replicate 127 [1, 0x61]).flatten
      ++ [0, 0, 1, 0, 1]) [⟨192, 0, 2, 1⟩]) (queryHeader 7 ++
        (List.replicate 127 [1, 0x61]).flatten ++ [0, 0, 1, 0, 1]) = .error invalid := by
    decide +kernel
  rw [hrefused] at hlist
  cases hlist

end CakeAutorate.RoutedDns
