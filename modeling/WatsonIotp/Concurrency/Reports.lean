import WatsonIotp.Concurrency.Polling
import WatsonIotp.Handler.FirmwareJson

/-!
# What the polling threads report

A thread that polls for progress makes ten passes at most, and ends after the first report
that says that the work is done. `reports_notified` says which notifications it sends: one
for each report up to that one, with the values that the hook has set last. The time of an
update is read from the JSON text, which keeps the last one that was set; it is only defined
if there has been room for each time in the buffer of `setJsonValue`. `exists_run` finds the
threads of the handler doing the same.
-/

open Json Value

variable {D : Type}

/-! ### The loop -/

/-- `n` passes of the loop from the pass `i` on. In each pass the hook writes to the
information; the result is what is put on the queue. -/
def ProgressLoop.passes (l : ProgressLoop D) (mClient : Bool)
    (reports : Nat → List FirmwareSetter) :
    Nat → Nat → FirmwareInfo D → Except Fault (List (ReplyMessage D))
  | 0, _, _ => .ok []
  | n + 1, i, p =>
      let p := (reports i).foldl FirmwareSetter.apply p
      if p.undefined then .error .indeterminate
      else do
        let value ← (l.value p).mapError Fault.json
        let sent := if mClient then [notification value] else []
        if l.ended p then return sent
        else
          let rest ← l.passes mClient reports n (i + 1) p
          return sent ++ rest

/-- The function of the thread, on a copy of `fwinfo`. -/
def ProgressLoop.run (l : ProgressLoop D) (mClient : Bool) (reports : Nat → List FirmwareSetter)
    (fwinfo : FirmwareInfo D) : Except Fault (List (ReplyMessage D)) :=
  l.passes mClient reports 10 0 fwinfo

/-- The number of the last pass is the smaller of ten and the number of the first report
that ends the loop. -/
structure LastPass (ended : Nat → Prop) (k : Nat) : Prop where
  pos : 1 ≤ k
  le_ten : k ≤ 10
  before : ∀ i, 1 ≤ i → i < k → ¬ ended i
  last : k = 10 ∨ ended k

theorem LastPass.eq_min {ended : Nat → Prop} {k first : Nat} (h : LastPass ended k)
    (hpos : 1 ≤ first) (hended : ended first) (hbefore : ∀ i, 1 ≤ i → i < first → ¬ ended i) :
    k = min 10 first := by
  have hle : k ≤ first := by
    by_contra hlt
    exact h.before first hpos (by omega) hended
  have hge : k = 10 ∨ first ≤ k := by
    apply h.last.imp id
    intro hk
    by_contra hlt
    exact hbefore k h.pos (by omega) hk
  have hten := h.le_ten
  omega

theorem LastPass.eq_ten {ended : Nat → Prop} {k : Nat} (h : LastPass ended k)
    (hnever : ∀ i, ¬ ended i) : k = 10 :=
  h.last.resolve_right (hnever k)

theorem exists_lastPass (ended : Nat → Prop) : ∃ k, LastPass ended k := by
  classical
  have h : ∃ k, 1 ≤ k ∧ (k = 10 ∨ ended k) := ⟨10, by decide, .inl rfl⟩
  refine ⟨Nat.find h, (Nat.find_spec h).1, ?_, ?_, (Nat.find_spec h).2⟩
  · exact Nat.find_min' h ⟨by decide, .inl rfl⟩
  · intro i hi hlt hended
    exact Nat.find_min h hlt ⟨hi, .inr hended⟩

/-- A pass and those behind it. -/
theorem passes_succ {l : ProgressLoop D} {mClient : Bool} {reports : Nat → List FirmwareSetter}
    {n i : Nat} {p q : FirmwareInfo D} {value : Value D}
    (hq : (reports i).foldl FirmwareSetter.apply p = q) (hdefined : q.undefined = false)
    (hvalue : l.value q = .ok value) :
    l.passes mClient reports (n + 1) i p =
      (if l.ended q = true then .ok [] else l.passes mClient reports n (i + 1) q).map
        ((if mClient then [notification value] else []) ++ ·) := by
  rw [ProgressLoop.passes, hq]
  refine (if_neg (by rw [hdefined]; exact Bool.false_ne_true)).trans ?_
  rw [hvalue]
  by_cases hended : l.ended q = true
  · rw [if_pos hended]
    refine (if_pos hended).trans ?_
    simp only [Except.map, List.append_nil]
    rfl
  · rw [if_neg hended]
    refine (if_neg hended).trans ?_
    cases l.passes mClient reports n (i + 1) q <;> rfl

/-- What is sent is that of a pass and of those behind it. -/
theorem exists_of_passes {l : ProgressLoop D} {mClient : Bool} {reports : Nat → List FirmwareSetter}
    {n i : Nat} {p q : FirmwareInfo D} {sent : List (ReplyMessage D)}
    (hq : (reports i).foldl FirmwareSetter.apply p = q)
    (h : l.passes mClient reports (n + 1) i p = .ok sent) :
    q.undefined = false ∧ ∃ value rest, l.value q = .ok value ∧
      (if l.ended q = true then .ok [] else l.passes mClient reports n (i + 1) q) = .ok rest ∧
        sent = (if mClient then [notification value] else []) ++ rest := by
  cases hdefined : q.undefined with
  | true =>
      have hfails : l.passes mClient reports (n + 1) i p = .error .indeterminate := by
        rw [ProgressLoop.passes, hq]
        exact if_pos hdefined
      cases h.symm.trans hfails
  | false =>
      refine ⟨rfl, ?_⟩
      cases hvalue : l.value q with
      | error e =>
          have hfails : l.passes mClient reports (n + 1) i p = .error (.json e) := by
            rw [ProgressLoop.passes, hq]
            refine (if_neg (by rw [hdefined]; exact Bool.false_ne_true)).trans ?_
            rw [hvalue]
            rfl
          cases h.symm.trans hfails
      | ok value =>
          rw [passes_succ hq hdefined hvalue] at h
          generalize hrest : (if l.ended q = true then .ok [] else
            l.passes mClient reports n (i + 1) q : Except Fault (List (ReplyMessage D))) = r at h
          cases r with
          | error e => cases h
          | ok rest => exact ⟨value, rest, rfl, rfl, (Except.ok.inj h).symm⟩

section Loop

variable {l : ProgressLoop D} {reports : Nat → List FirmwareSetter} {info : Nat → FirmwareInfo D}
  {value : Nat → Value D} {k : Nat}

/-- The passes that are left notify of the reports up to the last one. -/
theorem passes_eq (hlast : LastPass (fun j => l.ended (info j) = true) k)
    (hinfo : ∀ i, info (i + 1) = (reports i).foldl FirmwareSetter.apply (info i))
    (hdefined : ∀ j ≤ k, (info j).undefined = false)
    (hvalue : ∀ j ≤ k, l.value (info j) = .ok (value j)) {n i : Nat} (hten : i + n = 10)
    (hi : i ≤ k) (hbefore : 1 ≤ i → ¬ l.ended (info i) = true ∨ n = 0) :
    l.passes true reports n i (info i) =
      .ok ((List.range' (i + 1) (k - i)).map fun j => notification (value j)) := by
  have hlast10 := hlast.le_ten
  induction n generalizing i with
  | zero =>
      have hk : k = i := by omega
      rw [hk, Nat.sub_self]
      rfl
  | succ n ih =>
      have hlt : i < k := by
        by_contra hge
        obtain rfl : i = k := by omega
        have hended : l.ended (info i) = true := hlast.last.resolve_left (by omega)
        have hpos := hlast.pos
        obtain hnot | hzero := hbefore hpos
        · exact hnot hended
        · omega
      have hpass := @passes_succ D l true reports n i _ _ _ (hinfo i).symm (hdefined _ hlt)
        (hvalue _ hlt)
      have hcount : k - i = (k - (i + 1)) + 1 := by omega
      by_cases hended : l.ended (info (i + 1)) = true
      · have hk : k = i + 1 := by
          by_contra hne
          exact hlast.before (i + 1) (by omega) (by omega) hended
        rw [hpass, if_pos hended, hk, Nat.add_sub_cancel_left]
        rfl
      · rw [hpass, if_neg hended, ih (by omega) hlt fun _ => .inl hended, hcount, List.range'_succ]
        rfl

/-- Passes that come to an end have done nothing undefined up to the last one. -/
theorem defined_of_passes (hlast : LastPass (fun j => l.ended (info j) = true) k)
    (hinfo : ∀ i, info (i + 1) = (reports i).foldl FirmwareSetter.apply (info i))
    {n i : Nat} (hten : i + n = 10) {sent : List (ReplyMessage D)}
    (h : l.passes true reports n i (info i) = .ok sent) :
    ∀ j, i < j → j ≤ k → (info j).undefined = false := by
  have hlast10 := hlast.le_ten
  induction n generalizing i sent with
  | zero =>
      intro j hj hjk
      omega
  | succ n ih =>
      intro j hj hjk
      obtain ⟨hdefined, value, rest, -, hrest, -⟩ := exists_of_passes (hinfo i).symm h
      obtain rfl | hlt := Nat.eq_or_lt_of_le hj
      · exact hdefined
      · have hended : ¬ l.ended (info (i + 1)) = true := hlast.before (i + 1) (by omega) (by omega)
        rw [if_neg hended] at hrest
        exact ih (by omega) hrest j hlt hjk

theorem run_eq (l : ProgressLoop D) (value : Nat → Value D) {ended : Nat → Prop}
    {Defined : Nat → Prop}
    (hinfo : ∀ i, info (i + 1) = (reports i).foldl FirmwareSetter.apply (info i))
    (hdefined : ∀ i, (info i).undefined = false ↔ Defined i)
    (hmono : ∀ i j, i ≤ j → Defined j → Defined i)
    (hvalue : ∀ i, Defined i → l.value (info i) = .ok (value i))
    (hended : ∀ i, l.ended (info i) = true ↔ ended i) :
    ∃ k, LastPass ended k ∧ (l.run true reports (info 0) =
      .ok ((List.range' 1 k).map fun i => notification (value i)) ↔ Defined k) := by
  obtain ⟨k, hlast⟩ := exists_lastPass ended
  have hlast' : LastPass (fun j => l.ended (info j) = true) k := by
    rwa [funext fun i => propext (hended i)]
  refine ⟨k, hlast, fun h => ?_, fun h => ?_⟩
  · exact (hdefined k).mp (defined_of_passes hlast' hinfo rfl h k hlast.pos (le_refl k))
  · exact passes_eq (n := 10) (i := 0) hlast' hinfo
      (fun j hj => (hdefined j).mpr (hmono j k hj h)) (fun j hj => hvalue j (hmono j k hj h)) rfl
      (Nat.zero_le k) fun hpos => absurd hpos (by decide)

end Loop

/-! ### The time of an update -/

/-- The time that a setter sets, unless it is -1. -/
def FirmwareSetter.time? : FirmwareSetter → Option Int
  | .updatedDateTime value => if value = -1 then none else some value
  | _ => none

/-- The last of the times that are set. -/
def lastTime (setters : List FirmwareSetter) : Option Int :=
  (setters.filterMap FirmwareSetter.time?).getLast?

/-- The JSON text of an information has the time, and it is that of the information if this
has one. -/
structure Tells (p : FirmwareInfo D) (time : Option Int) : Prop where
  json : ∃ content : Content D, p.json.Has content ∧
    content "updatedDateTime".toList = time.map fun t => .stringValue (DateTime.text t)
  current : p.mUpdatedDateTime ≠ -1 → time = some p.mUpdatedDateTime

namespace Tells

variable {p q : FirmwareInfo D} {time time' : Option Int}

theorem new (name version uri verifier : StdString) :
    Tells (FirmwareInfo.new name version uri verifier : FirmwareInfo D) none :=
  have hstep := (FirmwareInfo.Constructed.new name version uri verifier).inStep.mpr
    FirmwareInfo.fits_neg_one
  ⟨⟨_, hstep.2, rfl⟩, fun h => absurd rfl h⟩

/-- The text is written anew, and takes the time of the information if this has one. -/
theorem setJsonValue (h : Tells p time) (hdefined : q.setJsonValue.undefined = false)
    (hjson : q.json = p.json)
    (htime : time' = if q.mUpdatedDateTime = -1 then time else some q.mUpdatedDateTime) :
    Tells q.setJsonValue time' := by
  obtain ⟨content, hhas, hcontent⟩ := h.json
  have hkey : tabled q.table "updatedDateTime".toList = FirmwareInfo.ofNumber q.mUpdatedDateTime
      (.stringValue (DateTime.text q.mUpdatedDateTime)) := rfl
  have hfits := ((FirmwareInfo.undefined_setJsonValue q).mp hdefined).2
  refine ⟨?_, ?_⟩
  · rw [FirmwareInfo.json_setJsonValue hfits, hjson]
    refine ⟨_, hhas.putAll q.table_names, ?_⟩
    rw [hkey, hcontent, htime, FirmwareInfo.ofNumber]
    split <;> rfl
  · intro hne
    exact htime.trans (if_neg hne)

/-- The step lemma: what a setter does to the time. -/
theorem apply (h : Tells p time) (setter : FirmwareSetter)
    (hdefined : (setter.apply p).undefined = false) :
    Tells (setter.apply p) (setter.time?.or time) := by
  have hkeep : time = if p.mUpdatedDateTime = -1 then time else some p.mUpdatedDateTime := by
    split_ifs with hp
    · rfl
    · exact h.current hp
  cases setter with
  | name value => exact ⟨h.json, h.current⟩
  | version value => exact ⟨h.json, h.current⟩
  | uri value => exact ⟨h.json, h.current⟩
  | verifier value => exact ⟨h.json, h.current⟩
  | state value => exact h.setJsonValue hdefined rfl hkeep
  | updateStatus value => exact h.setJsonValue hdefined rfl hkeep
  | updatedDateTime value =>
      refine h.setJsonValue (q := { p with mUpdatedDateTime := value }) hdefined rfl ?_
      change Option.or (if value = -1 then none else some value) time = if value = -1 then _ else _
      split <;> rfl

/-- The run lemma. -/
theorem foldl (h : Tells p time) (setters : List FirmwareSetter)
    (hfits : p.undefined = false → DateTime.Fits p.mUpdatedDateTime)
    (hdefined : (setters.foldl FirmwareSetter.apply p).undefined = false) :
    Tells (setters.foldl FirmwareSetter.apply p) ((lastTime setters).or time) := by
  induction setters generalizing p time with
  | nil => exact h
  | cons setter setters ih =>
      have hlast : lastTime (setter :: setters) = (lastTime setters).or setter.time? := by
        change (([setter] ++ setters).filterMap FirmwareSetter.time?).getLast? = _
        rw [List.filterMap_append, List.getLast?_append]
        cases htime : setter.time? <;> simp [lastTime, htime]
      have hfits' := FirmwareSetter.fits_apply hfits setter
      have hdefined' := ((FirmwareSetter.undefined_foldl hfits' setters).mp hdefined).1
      rw [hlast, Option.or_assoc]
      exact ih (h.apply setter hdefined') hfits' hdefined

variable [CxxDouble D]

/-- The text that the loop reads for the time. -/
theorem asString_eq (h : Tells p time) :
    (p.json.memberOr "updatedDateTime".toList (.stringValue [])).asString =
      .ok (time.elim [] DateTime.text) := by
  obtain ⟨content, hhas, hcontent⟩ := h.json
  rw [hhas.memberOr, hcontent]
  cases time <;> rfl

end Tells

/-! ### The notifications -/

/-- A message to `iotdevice-1/notify` with a value for the field `mgmt.firmware`. -/
def firmwareMessage (value : Value D) : ReplyMessage D where
  topic := "iotdevice-1/notify".toList
  payload := .objectValue [("d".toList, .objectValue [("fields".toList, .arrayValue
    [.objectValue [("field".toList, .stringValue "mgmt.firmware".toList),
      ("value".toList, value)]])])]

/-- What a pass of `check_download_progress` reports. -/
def downloadReport (f : FirmwareFields) : Value D :=
  .objectValue [("state".toList, .intValue f.state)]

/-- What a pass of `check_update_progress` reports, with the time if the update has been
successful (0). -/
def updateReport (f : FirmwareFields) (time : Option Int) : Value D := .objectValue <|
  [("state".toList, .intValue f.state), ("updateStatus".toList, .intValue f.updateStatus)] ++
    if f.updateStatus = 0 then
      [("updatedDateTime".toList, .stringValue (time.elim [] DateTime.text))]
    else []

theorem checkUpdateProgress_value [CxxDouble D] {p : FirmwareInfo D} {time : Option Int}
    (h : Tells p time) : checkUpdateProgress.value p = .ok (updateReport p.fields time) := by
  obtain ⟨content, hhas, -⟩ := h.json
  change (if p.mUpdateStatus = 0 then _ else _) = _
  have hstatus : p.fields.updateStatus = p.mUpdateStatus := rfl
  rw [updateReport, hstatus]
  split
  · exact member_bind_eq hhas.objectLike h.asString_eq
  · rfl

section Reports

variable (reports : Nat → List FirmwareSetter)

/-- What the hook has written in the first `i` reports. -/
def written (i : Nat) : List FirmwareSetter := (List.range i).flatMap reports

/-- The fields of the thread's copy of the information after `i` reports: what has been set
last, and in the beginning no text, the state idle and neither status nor time. -/
def fieldsAfter (i : Nat) : FirmwareFields :=
  (written reports i).foldl FirmwareSetter.set ⟨[], [], [], [], 0, -1, -1⟩

/-- There is room for the times that the hook has set in the first `i` reports. -/
def TimesFit (i : Nat) : Prop :=
  ∀ time, .updatedDateTime time ∈ written reports i → DateTime.Fits time

/-- The thread's copy of the information after `i` reports. -/
def infoAfter (i : Nat) : FirmwareInfo D :=
  (written reports i).foldl FirmwareSetter.apply (FirmwareHandler.new : FirmwareHandler D).fwinfo

theorem infoAfter_succ (i : Nat) : (infoAfter reports (i + 1) : FirmwareInfo D) =
    (reports i).foldl FirmwareSetter.apply (infoAfter reports i) := by
  rw [infoAfter, written, List.range_succ, List.flatMap_append, List.foldl_append]
  simp only [List.flatMap_cons, List.flatMap_nil, List.append_nil]
  rfl

theorem fields_infoAfter (i : Nat) :
    (infoAfter reports i : FirmwareInfo D).fields = fieldsAfter reports i :=
  FirmwareSetter.fields_foldl (written reports i) _

theorem fits_fwinfo :
    DateTime.Fits (FirmwareHandler.new : FirmwareHandler D).fwinfo.mUpdatedDateTime := by
  have hnone : (FirmwareHandler.new : FirmwareHandler D).fwinfo.mUpdatedDateTime = -1 := rfl
  exact hnone ▸ FirmwareInfo.fits_neg_one

theorem undefined_infoAfter (i : Nat) :
    (infoAfter reports i : FirmwareInfo D).undefined = false ↔ TimesFit reports i := by
  have hdefined : (FirmwareHandler.new : FirmwareHandler D).fwinfo.undefined = false := rfl
  rw [infoAfter, FirmwareSetter.undefined_foldl fun _ => fits_fwinfo, and_iff_right hdefined]
  rfl

theorem tells_infoAfter {i : Nat} (h : TimesFit reports i) :
    Tells (infoAfter reports i : FirmwareInfo D) (lastTime (written reports i)) := by
  have htells := (Tells.new (D := D) [] [] [] []).foldl (written reports i)
    (fun _ => fits_fwinfo) ((undefined_infoAfter reports i).mpr h)
  rwa [Option.or_none] at htells

theorem TimesFit.mono {i j : Nat} (hle : i ≤ j) (h : TimesFit reports j) : TimesFit reports i := by
  intro time hmem
  obtain ⟨n, hn, hreport⟩ := List.mem_flatMap.mp hmem
  refine h time (List.mem_flatMap.mpr ⟨n, List.mem_range.mpr ?_, hreport⟩)
  exact Nat.lt_of_lt_of_le (List.mem_range.mp hn) hle

/-- With the client bound, a download is reported on up to the report that leaves it
downloaded (2), and an update up to the report that leaves it in no progress (1); either way
ten times at most. Each report has its notification, and nothing else is sent; but only as
long as the hook sets times that there is room for. -/
theorem reports_notified [CxxDouble D] :
    (∃ k, LastPass (fun i => (fieldsAfter reports i).state = 2) k ∧
      (checkDownloadProgress.run true reports (FirmwareHandler.new : FirmwareHandler D).fwinfo =
        .ok ((List.range' 1 k).map fun i =>
          firmwareMessage (downloadReport (fieldsAfter reports i))) ↔ TimesFit reports k)) ∧
    ∃ k, LastPass (fun i => (fieldsAfter reports i).updateStatus ≠ 1) k ∧
      (checkUpdateProgress.run true reports (FirmwareHandler.new : FirmwareHandler D).fwinfo =
        .ok ((List.range' 1 k).map fun i => firmwareMessage
          (updateReport (fieldsAfter reports i) (lastTime (written reports i)))) ↔
        TimesFit reports k) := by
  constructor
  · apply run_eq checkDownloadProgress (fun i => downloadReport (fieldsAfter reports i))
      (infoAfter_succ reports) (undefined_infoAfter reports) fun _ _ => TimesFit.mono reports
    · intro i _
      rw [← fields_infoAfter (D := D)]
      rfl
    · intro i
      rw [← fields_infoAfter (D := D)]
      exact decide_eq_true_iff
  · apply run_eq checkUpdateProgress
      (fun i => updateReport (fieldsAfter reports i) (lastTime (written reports i)))
      (infoAfter_succ reports) (undefined_infoAfter reports) fun _ _ => TimesFit.mono reports
    · intro i hfits
      rw [← fields_infoAfter (D := D)]
      exact checkUpdateProgress_value (tells_infoAfter reports hfits)
    · intro i
      rw [← fields_infoAfter (D := D)]
      exact decide_eq_true_iff

end Reports

/-- In the first second of the year 10000 there is no room for the year. -/
theorem reports_notified_fails : ¬ ∀ reports : Nat → List FirmwareSetter,
    ∃ k, LastPass (fun i => (fieldsAfter reports i).updateStatus ≠ 1) k ∧
      checkUpdateProgress.run true reports (FirmwareHandler.new : FirmwareHandler Int).fwinfo =
        .ok ((List.range' 1 k).map fun i => firmwareMessage
          (updateReport (fieldsAfter reports i) (lastTime (written reports i)))) := by
  intro h
  obtain ⟨k, -, hrun⟩ := h fun _ => [.updatedDateTime 253402300800, .updateStatus 0]
  have hundefined : checkUpdateProgress.run true
      (fun _ => [.updatedDateTime 253402300800, .updateStatus 0])
      (FirmwareHandler.new : FirmwareHandler Int).fwinfo = .error .indeterminate := rfl
  cases hrun.symm.trans hundefined

/-! ### The threads of a handler -/

namespace Polling

variable [CxxDouble D]

omit [CxxDouble D] in
theorem setPoll_get {s : State D} {k : Nat} {t : Poll D} (hpoll : s.polls[k]? = some t)
    (u : Poll D) : (s.setPoll k u).polls[k]? = some u := by
  obtain ⟨hlt, -⟩ := List.getElem?_eq_some_iff.mp hpoll
  exact List.getElem?_set_self hlt

/-- The thread behind a pass in which the hook has made these calls. -/
def passed (t : Poll D) (setters : List FirmwareSetter) : Poll D :=
  let p := setters.foldl FirmwareSetter.apply t.p
  { t with
    p := p
    i := t.i + 1
    phase := if t.loop.ended p = true ∨ t.i + 1 = 10 then .finished else .sleeping }

/-- A thread that sleeps can make a pass. -/
theorem exists_pass {s : State D} {k : Nat} {t : Poll D} {setters : List FirmwareSetter}
    {value : Value D} (halive : s.terminated = false) (hpoll : s.polls[k]? = some t)
    (hphase : t.phase = .sleeping)
    (hvalue : t.loop.value (setters.foldl FirmwareSetter.apply t.p) = .ok value) :
    ∃ u, machine.Run s [.report k setters, .notify k] u ∧ u.terminated = false ∧
      u.mClient = s.mClient ∧ u.polls[k]? = some (passed t setters) ∧
      u.replies = s.replies ++ if s.mClient then [notification value] else [] := by
  let p := setters.foldl FirmwareSetter.apply t.p
  let reporting : Poll D := { t with p := p, phase := .notifying }
  have hreport : t.report setters = some reporting := if_pos hphase
  have hnotify : reporting.notify = some (some (notification value), passed t setters) := by
    have hvalue' : reporting.loop.value reporting.p = .ok value := hvalue
    rw [Poll.notify, if_pos rfl, hvalue']
    rfl
  have hget := setPoll_get hpoll reporting
  have hstep : machine.step s (.report k setters) = some (s.setPoll k reporting) := by
    simp only [machine, step, halive, hpoll, Option.bind_eq_bind, Option.bind_some, hreport]
    rfl
  have hstep' : machine.step (s.setPoll k reporting) (.notify k) =
      some ((s.setPoll k reporting).notified k (some (notification value)) (passed t setters)) := by
    have halive' : (s.setPoll k reporting).terminated = false := halive
    simp only [machine, step, halive', hget, Option.bind_eq_bind, Option.bind_some, hnotify]
    rfl
  refine ⟨_, .cons hstep (.cons hstep' (.nil _)), halive, rfl, setPoll_get hget _, ?_⟩
  change (if s.mClient then s.replies ++ [notification value] else s.replies) = _
  split
  · rfl
  · exact (List.append_nil _).symm

/-- A thread with `n` passes left can make those that it makes. -/
theorem exists_passes {reports : Nat → List FirmwareSetter} {s : State D} {k n : Nat} {t : Poll D}
    {sent : List (ReplyMessage D)} (halive : s.terminated = false)
    (hpoll : s.polls[k]? = some t) (hten : t.i + n = 10)
    (hphase : t.phase = if n = 0 then .finished else .sleeping)
    (hpasses : t.loop.passes s.mClient reports n t.i t.p = .ok sent) :
    ∃ acts u v, machine.Run s acts u ∧ u.replies = s.replies ++ sent ∧
      u.polls[k]? = some v ∧ v.phase = .finished := by
  induction n generalizing s t sent with
  | zero =>
      obtain rfl := Except.ok.inj hpasses
      exact ⟨[], s, t, .nil s, (List.append_nil _).symm, hpoll, hphase⟩
  | succ n ih =>
      obtain ⟨-, value, rest, hvalue, hrest, rfl⟩ := exists_of_passes rfl hpasses
      obtain ⟨u, hrun, halive', hclient, hget, hreplies⟩ :=
        exists_pass halive hpoll hphase hvalue
      have hgoes : ∃ acts w v, machine.Run u acts w ∧ w.replies = u.replies ++ rest ∧
          w.polls[k]? = some v ∧ v.phase = .finished := by
        by_cases hends : t.loop.ended ((reports t.i).foldl FirmwareSetter.apply t.p) = true
        · rw [if_pos hends] at hrest
          obtain rfl := Except.ok.inj hrest
          exact ⟨[], u, _, .nil u, (List.append_nil _).symm, hget, if_pos (.inl hends)⟩
        · rw [if_neg hends, ← hclient] at hrest
          refine ih halive' hget (show t.i + 1 + n = 10 by omega) ?_ hrest
          show (if _ ∨ t.i + 1 = 10 then _ else _) = if n = 0 then _ else _
          exact if_congr (by rw [or_iff_right hends]; omega) rfl rfl
      obtain ⟨acts, w, v, hrun', hreplies', hv⟩ := hgoes
      refine ⟨_, w, v, hrun.append hrun', ?_, hv⟩
      rw [hreplies', hreplies, List.append_assoc]

/-- A thread that sleeps can go on to its end, and what comes to the queue of it is what its
function sends. -/
theorem exists_run {reports : Nat → List FirmwareSetter} {s : State D} {k n : Nat} {t : Poll D}
    {sent : List (ReplyMessage D)} (halive : s.terminated = false)
    (hpoll : s.polls[k]? = some t) (hphase : t.phase = .sleeping) (hten : t.i + (n + 1) = 10)
    (hpasses : t.loop.passes s.mClient reports (n + 1) t.i t.p = .ok sent) :
    ∃ acts u v, machine.Run s acts u ∧ u.replies = s.replies ++ sent ∧
      u.polls[k]? = some v ∧ v.phase = .finished :=
  exists_passes halive hpoll hten hphase hpasses

end Polling
