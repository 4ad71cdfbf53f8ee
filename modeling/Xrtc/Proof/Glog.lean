import Xrtc.Go.Glog
import Xrtc.Lib.Machine

/-!
# What the log files hold
-/

namespace Xrtc.Proof.Glog
open Lib Go.Glog
open Go (Str)
open Lib.Printf (text)

structure Volume where
  path : Path
  time : LogTime
  messages : List Str

def content (disk : LogDisk) (volume : Volume) : Str := fileHeader disk volume.time ++ volume.messages.flatten

def entry (disk : LogDisk) (volume : Volume) : Path × Str := (volume.path, content disk volume)

/-- What is left of files that were created in this order: a file replaces the one of its name. -/
def onDisk (volumes : List Volume) : List Volume :=
  volumes.foldl (fun files volume => files.filter (·.path ≠ volume.path) ++ [volume]) []

theorem onDisk_append (volumes : List Volume) (volume : Volume) :
    onDisk (volumes ++ [volume]) = (onDisk volumes).filter (·.path ≠ volume.path) ++ [volume] := by
  rw [onDisk, List.foldl_append]
  rfl

theorem onDisk_of_nodup {volumes : List Volume} (different : (volumes.map Volume.path).Nodup) :
    onDisk volumes = volumes := by
  induction volumes using List.reverseRecOn with
  | nil => rfl
  | append_singleton volumes volume ih =>
      rw [List.map_append, List.nodup_append] at different
      obtain ⟨before, -, apart⟩ := different
      rw [onDisk_append, ih before, List.filter_eq_self.mpr fun other member => ?_]
      exact decide_eq_true (apart _ (List.mem_map_of_mem member) _ (List.mem_singleton_self _))

/-- `os.Create` never fails, and no file is ever full. -/
structure Endless (disk : LogDisk) : Prop where
  dirs : disk.logDirs ≠ []
  creates : ∀ n, disk.osCreate n = .ok none

/-- The buffer has gone through these files, the last of which is open. A file grows beyond the limit only with a
single message in it. -/
structure Holds (disk : LogDisk) (s : Severity) (sb : SyncBuffer) (old : List Volume) (last : Volume) : Prop where
  closed : sb.closed = ((onDisk old).filter (·.path ≠ last.path)).map (entry disk)
  created : sb.created = (old ++ [last]).map Volume.path
  named : ∀ volume ∈ old ++ [last], volume.path.2 = logName disk s.name volume.time
  file : sb.file = some last.path
  writer : ∃ w, sb.writer = some w ∧ w.Unlimited ∧ w.bytes = content disk last ∧ w.buf.length ≤ bufferSize
  nbytes : sb.nbytes = (content disk last).length
  bounded : ∀ volume ∈ old ++ [last], (content disk volume).length < disk.maxSize ∨ volume.messages.length ≤ 1

variable {disk : LogDisk} {sb : SyncBuffer} {old : List Volume} {last : Volume} {l : Logging} {s : Severity}

theorem run_get {α : Type} (f : Logging → LogM α) (l : Logging) : ((get : LogM Logging) >>= f) l = f l l := rfl

theorem run_modify (f : Logging → Logging) (l : Logging) : (modify f : LogM Unit) l = .ok () (f l) := rfl

theorem run_ask {α : Type} (answers : Nat → α) (l : Logging) :
    ask answers l = .ok (answers l.asked) { l with asked := l.asked + 1 } := rfl

theorem create_run (endless : Endless disk) (tag : Str) (t : LogTime) (l : Logging) :
    ∃ dir, create disk tag t l = .ok (.ok ((dir, logName disk tag t), none)) { l with asked := l.asked + 1 } := by
  cases dirs : disk.logDirs with
  | nil => exact absurd dirs endless.dirs
  | cons dir others =>
      refine ⟨dir, ?_⟩
      rw [create, dirs, if_neg (by simp), createIn, run_bind_ok (run_ask _ _), endless.creates]
      rfl

theorem reopen_eq (sb : SyncBuffer) (path : Path) (header : Str) : sb.reopen path none header =
    (⟨sb.closed.filter (·.1 ≠ path), some path, some ⟨none, header, [], none⟩, header.length,
      sb.created ++ [path]⟩, none) := by
  have fresh : FileWriter.Unlimited (⟨none, [], [], none⟩ : FileWriter UInt8 String) := ⟨rfl, rfl⟩
  rw [SyncBuffer.reopen, fresh.put]
  rfl

theorem rotateFile_run (endless : Endless disk) (s : Severity) (now : LogTime) (sb : SyncBuffer) (l : Logging) :
    ∃ path next, path.2 = logName disk s.name now ∧
      rotateFile disk s now sb l = .ok (next, none) { l with asked := l.asked + 1 } ∧
      next = ⟨(sb.close disk).closed.filter (·.1 ≠ path), some path, some ⟨none, fileHeader disk now, [], none⟩,
        (fileHeader disk now).length, (sb.close disk).created ++ [path]⟩ := by
  obtain ⟨dir, created⟩ := create_run endless s.name now l
  refine ⟨(dir, logName disk s.name now), _, rfl, ?_, rfl⟩
  rw [rotateFile, run_bind_ok created]
  simp only [reopen_eq]
  rfl

theorem Holds.close (holds : Holds disk s sb old last) :
    (sb.close disk).closed = (onDisk (old ++ [last])).map (entry disk) ∧
      (sb.close disk).created = (old ++ [last]).map Volume.path := by
  obtain ⟨w, found, unlimited, bytes, -⟩ := holds.writer
  rw [SyncBuffer.close, holds.file, found]
  simp only [unlimited.flush, bytes, holds.closed, holds.created, onDisk_append, List.map_append, List.map_cons,
    List.map_nil, entry, and_self]

theorem Holds.rotate (endless : Endless disk) (holds : Holds disk s sb old last) (now : LogTime) (l : Logging) :
    ∃ next path, rotateFile disk s now sb l = .ok (next, none) { l with asked := l.asked + 1 } ∧
      Holds disk s next (old ++ [last]) ⟨path, now, []⟩ := by
  obtain ⟨path, next, named, rotates, rfl⟩ := rotateFile_run endless s now sb l
  obtain ⟨closed, created⟩ := holds.close
  refine ⟨_, path, rotates, ?_, ?_, fun volume member => ?_, rfl, ⟨_, rfl, ⟨rfl, rfl⟩, ?_, Nat.zero_le _⟩, ?_,
    fun volume member => ?_⟩
  · rw [closed, List.filter_map]
    rfl
  · rw [created, @List.map_append _ _ _ (old ++ [last])]
    rfl
  · obtain before | here := List.mem_append.mp member
    · exact holds.named volume before
    · rw [List.mem_singleton.mp here]
      exact named
  · simp [FileWriter.bytes, content]
  · simp [content]
  · obtain before | here := List.mem_append.mp member
    · exact holds.bounded volume before
    · rw [List.mem_singleton.mp here]
      exact .inr (Nat.zero_le _)

theorem Holds.add (holds : Holds disk s sb old last) (p : Str)
    (small : sb.nbytes + p.length < disk.maxSize ∨ last.messages = []) :
    ∃ w w', sb.writer = some w ∧ w.write bufferSize p = (w', []) ∧ w'.err = none ∧
      Holds disk s { sb with writer := some w', nbytes := sb.nbytes + p.length } old
        { last with messages := last.messages ++ [p] } := by
  obtain ⟨w, found, unlimited, bytes, bound⟩ := holds.writer
  obtain ⟨w', written, unlimited', bytes', bound'⟩ := unlimited.write bound p
  have longer : content disk { last with messages := last.messages ++ [p] } = content disk last ++ p := by
    simp [content]
  have same : (old ++ [{ last with messages := last.messages ++ [p] }]).map Volume.path =
      (old ++ [last]).map Volume.path := by simp
  refine ⟨w, w', found, written, unlimited'.err, holds.closed, holds.created.trans same.symm, fun volume member => ?_,
    holds.file, ⟨w', rfl, unlimited', ?_, bound'⟩, ?_, fun volume member => ?_⟩
  · obtain before | here := List.mem_append.mp member
    · exact holds.named volume (List.mem_append_left _ before)
    · rw [List.mem_singleton.mp here]
      exact holds.named last (List.mem_append_right _ (List.mem_singleton_self _))
  · rw [bytes', bytes, longer]
  · rw [longer, List.length_append, ← holds.nbytes]
  · obtain before | here := List.mem_append.mp member
    · exact holds.bounded volume (List.mem_append_left _ before)
    · rw [List.mem_singleton.mp here]
      refine small.imp (fun less => ?_) fun first => ?_
      · rw [longer, List.length_append, ← holds.nbytes]
        exact less
      · simp [first]

def Keeps (disk : LogDisk) (s : Severity) (sb : SyncBuffer) (records : List Str) : Prop :=
  ∃ old last, Holds disk s sb old last ∧ old.flatMap Volume.messages ++ last.messages = records

def Complete (disk : LogDisk) (s : Severity) (sb : SyncBuffer) (records : List Str) : Prop :=
  ∃ old last, Holds disk s sb old last ∧ sb.closed = old.map (entry disk) ∧
    old.flatMap Volume.messages ++ last.messages = records

theorem Keeps.complete {records : List Str} (keeps : Keeps disk s sb records) (different : sb.created.Nodup) :
    Complete disk s sb records := by
  obtain ⟨old, last, holds, same⟩ := keeps
  refine ⟨old, last, holds, ?_, same⟩
  rw [holds.created] at different
  have whole := onDisk_of_nodup different
  rw [onDisk_append] at whole
  rw [holds.closed, List.append_cancel_right whole]

theorem keeps_new (endless : Endless disk) (s : Severity) (now : LogTime) (l : Logging) :
    ∃ sb, rotateFile disk s now {} l = .ok (sb, none) { l with asked := l.asked + 1 } ∧ Keeps disk s sb [] := by
  obtain ⟨path, next, named, rotates, rfl⟩ := rotateFile_run endless s now {} l
  refine ⟨_, rotates, [], ⟨path, now, []⟩, ⟨rfl, rfl, fun volume member => ?_, rfl,
    ⟨_, rfl, ⟨rfl, rfl⟩, ?_, Nat.zero_le _⟩, ?_, fun volume member => ?_⟩, rfl⟩
  · rw [List.mem_singleton.mp member]
    exact named
  · simp [FileWriter.bytes, content]
  · simp [content]
  · rw [List.mem_singleton.mp member]
    exact .inr (Nat.zero_le _)

def Flushed (sb : SyncBuffer) : Prop := ∃ w, sb.writer = some w ∧ w.buf = []

theorem Keeps.flush {records : List Str} (keeps : Keeps disk s sb records) :
    Keeps disk s sb.flush records ∧ Flushed sb.flush := by
  obtain ⟨old, last, holds, same⟩ := keeps
  obtain ⟨w, found, unlimited, bytes, -⟩ := holds.writer
  have flushed : sb.flush.writer = some w.flush := by rw [SyncBuffer.flush, found]; rfl
  rw [unlimited.flush] at flushed
  refine ⟨⟨old, last, ⟨holds.closed, holds.created, holds.named, holds.file,
    ⟨_, flushed, ⟨unlimited.limit, unlimited.err⟩, ?_, Nat.zero_le _⟩, holds.nbytes, holds.bounded⟩, same⟩,
    _, flushed, rfl⟩
  rw [← bytes]
  exact List.append_nil _

/-! ## Writing -/

theorem rotated_run (endless : Endless disk) (holds : Holds disk s sb old last) (found : l.file s = some sb)
    (p : Str) :
    ∃ sb' n old' last', rotated disk s p sb l = .ok sb' { l.setFile s sb' with asked := n } ∧
      Holds disk s sb' old' last' ∧
      old'.flatMap Volume.messages ++ last'.messages = old.flatMap Volume.messages ++ last.messages ∧
      (sb'.nbytes + p.length < disk.maxSize ∨ last'.messages = []) := by
  by_cases full : disk.maxSize ≤ sb.nbytes + p.length
  · obtain ⟨next, path, rotates, fresh⟩ := holds.rotate endless (disk.clock l.asked) { l with asked := l.asked + 1 }
    refine ⟨next, l.asked + 1 + 1, _, _, ?_, fresh, ?_, .inr rfl⟩
    · rw [rotated, if_pos full, run_bind_ok (run_ask _ _), run_bind_ok rotates]
      rfl
    · simp
  · refine ⟨sb, l.asked, old, last, ?_, holds, rfl, .inl (Nat.not_le.mp full)⟩
    rw [rotated, if_neg full, Logging.setFile, ← found, Function.update_eq_self]
    rfl

theorem write_run (endless : Endless disk) {records : List Str} (found : l.file s = some sb)
    (keeps : Keeps disk s sb records) (p : Str) :
    ∃ sb' n, write disk s p l = .ok () { l with file := Function.update l.file s (some sb'), asked := n } ∧
      Keeps disk s sb' (records ++ [p]) := by
  obtain ⟨old, last, holds, rfl⟩ := keeps
  obtain ⟨sb', n, old', last', rotates, holds', same, small⟩ := rotated_run endless holds found p
  obtain ⟨w, w', writer, written, fine, more⟩ := holds'.add p small
  refine ⟨_, n, ?_, old', { last' with messages := last'.messages ++ [p] }, more, ?_⟩
  · rw [write, run_get]
    simp only [found]
    rw [run_bind_ok rotates]
    simp only [writer, written]
    rw [run_bind_ok (run_modify _ _)]
    simp [fine, Logging.setFile, pure, EStateM.pure]
  · rw [← List.append_assoc, same]

theorem writeAll_run (endless : Endless disk) (p : Str) {records : Severity → List Str} {list : List Severity}
    (different : list.Nodup) (each : ∀ t ∈ list, ∃ sb, l.file t = some sb ∧ Keeps disk t sb (records t)) :
    ∃ files n, writeAll disk p list l = .ok () { l with file := files, asked := n } ∧
      (∀ t, t ∉ list → files t = l.file t) ∧
      ∀ t ∈ list, ∃ sb, files t = some sb ∧ Keeps disk t sb (records t ++ [p]) := by
  induction list generalizing l with
  | nil => exact ⟨l.file, l.asked, rfl, fun _ _ => rfl, fun _ member => absurd member List.not_mem_nil⟩
  | cons s rest ih =>
      obtain ⟨others, distinct⟩ := List.nodup_cons.mp different
      obtain ⟨sb, found, keeps⟩ := each s (List.mem_cons_self ..)
      obtain ⟨sb', n, written, more⟩ := write_run endless found keeps p
      have still (t : Severity) (other : t ≠ s) : Function.update l.file s (some sb') t = l.file t :=
        Function.update_of_ne other ..
      obtain ⟨files, m, all, outside, inside⟩ :=
        ih (l := { l with file := Function.update l.file s (some sb'), asked := n }) distinct fun t member => by
          simp only [still t fun same => others (same ▸ member)]
          exact each t (List.mem_cons_of_mem _ member)
      refine ⟨files, m, ?_, fun t absent => ?_, fun t member => ?_⟩
      · rw [writeAll]
        exact (run_bind_ok written).trans all
      · obtain ⟨other, later⟩ := not_or.mp (List.mem_cons.not.mp absent)
        exact (outside t later).trans (still t other)
      · obtain rfl | later := List.mem_cons.mp member
        · exact ⟨sb', (outside t others).trans (Function.update_self ..), more⟩
        · exact inside t later

theorem createLoop_run (endless : Endless disk) (now : LogTime) {list : List Severity} (different : list.Nodup)
    (down : list.Pairwise fun a b => (l.file a).isSome → (l.file b).isSome) :
    ∃ files n, createLoop disk now list l = .ok none { l with file := files, asked := n } ∧
      (∀ t, (t ∈ list → (l.file t).isSome) → files t = l.file t) ∧
      ∀ t ∈ list, l.file t = none → ∃ sb, files t = some sb ∧ Keeps disk t sb [] := by
  induction list generalizing l with
  | nil => exact ⟨l.file, l.asked, rfl, fun _ _ => rfl, fun _ member => absurd member List.not_mem_nil⟩
  | cons s rest ih =>
      obtain ⟨others, distinct⟩ := List.nodup_cons.mp different
      obtain ⟨lower, below⟩ := List.pairwise_cons.mp down
      by_cases there : (l.file s).isSome
      · -- the files below this one are there too
        refine ⟨l.file, l.asked, ?_, fun _ _ => rfl, fun t member absent => ?_⟩
        · rw [createLoop, run_get, if_pos there]
          rfl
        · obtain rfl | later := List.mem_cons.mp member
          · rw [absent] at there; cases there
          · have there := lower t later there
            rw [absent] at there; cases there
      · obtain ⟨sb, rotates, empty⟩ := keeps_new endless s now l
        have still (t : Severity) (member : t ∈ rest) : Function.update l.file s (some sb) t = l.file t :=
          Function.update_of_ne (fun same : t = s => others (same ▸ member)) ..
        obtain ⟨files, m, all, kept, made⟩ :=
          ih (l := { l with file := Function.update l.file s (some sb), asked := l.asked + 1 }) distinct
            (below.imp_of_mem fun {a b} first second up => by
              simp only [still a first, still b second] at up ⊢
              exact up)
        refine ⟨files, m, ?_, fun t present => ?_, fun t member absent => ?_⟩
        · rw [createLoop, run_get, if_neg there, run_bind_ok rotates]
          exact all
        · have other : t ≠ s := by
            rintro rfl
            exact there (present (List.mem_cons_self ..))
          have same : Function.update l.file s (some sb) t = l.file t := Function.update_of_ne other ..
          refine (kept t fun member => ?_).trans same
          simp only [same]
          exact present (List.mem_cons_of_mem _ member)
        · obtain rfl | later := List.mem_cons.mp member
          · refine ⟨sb, (kept t fun member => absurd member others).trans (Function.update_self ..), empty⟩
          · exact made t later ((still t later).trans absent)

/-! ## A message -/

theorem down_nodup (s : Severity) : s.down.Nodup := by cases s <;> decide

theorem targets_nodup (s : Severity) : s.targets.Nodup := by cases s <;> decide

theorem down_pairwise (s : Severity) : s.down.Pairwise fun a b => b ∈ a.down := by cases s <;> decide

theorem down_trans {a b : Severity} (lower : b ∈ a.down) {s : Severity} (below : a ∈ s.down) : b ∈ s.down := by
  revert lower below
  cases s <;> cases a <;> cases b <;> decide

theorem target_down {s t : Severity} (target : t ∈ s.targets) : t ∈ s.down ∨ s = .debugLog ∧ t = .infoLog := by
  revert target
  cases s <;> cases t <;> decide

def recorded (sent : List (Severity × Str)) (s : Severity) : List Str :=
  (sent.filter fun message => s ∈ message.1.targets).map Prod.snd

/-- A file is there from the first message on that creates it, and it has the messages that go to it. -/
structure Sound (disk : LogDisk) (files : Severity → Option SyncBuffer) (sent : List (Severity × Str)) : Prop where
  opened : ∀ s, (files s).isSome ↔ ∃ message ∈ sent, s ∈ message.1.down
  kept : ∀ s sb, files s = some sb → Keeps disk s sb (recorded sent s)
  silent : ∀ s, files s = none → recorded sent s = []

variable {sent : List (Severity × Str)}

theorem Sound.lower (sound : Sound disk l.file sent) {a b : Severity} (lower : b ∈ a.down)
    (there : (l.file a).isSome) : (l.file b).isSome := by
  obtain ⟨message, member, below⟩ := (sound.opened a).mp there
  exact (sound.opened b).mpr ⟨message, member, down_trans lower below⟩

theorem ensureFiles_run (endless : Endless disk) (sound : Sound disk l.file sent) (s : Severity) (data : Str) :
    ∃ files n, ensureFiles disk s data l = .ok () { l with file := files, asked := n } ∧
      (∀ t, (files t).isSome ↔ (l.file t).isSome ∨ t ∈ s.down) ∧
      (∀ t sb, files t = some sb → Keeps disk t sb (recorded sent t)) ∧ ∀ t, files t = none → l.file t = none := by
  by_cases there : (l.file s).isNone
  · obtain ⟨files, n, created, kept, made⟩ := createLoop_run (l := { l with asked := l.asked + 1 }) endless
      (disk.clock l.asked) (down_nodup s) ((down_pairwise s).imp fun lower => sound.lower lower)
    have new (t : Severity) (member : t ∈ s.down) (absent : l.file t = none) := made t member absent
    have same (t : Severity) (untouched : ¬ (t ∈ s.down ∧ l.file t = none)) : files t = l.file t :=
      kept t fun member => Option.isSome_iff_ne_none.mpr fun absent => untouched ⟨member, absent⟩
    refine ⟨files, n, ?_, fun t => ?_, fun t sb found => ?_, fun t absent => ?_⟩
    · have made : createFiles disk s l = .ok none { l with file := files, asked := n } := by
        rw [createFiles, run_bind_ok (run_ask _ _)]
        exact created
      rw [ensureFiles, run_get, if_pos there, run_bind_ok made]
      rfl
    all_goals by_cases fresh : t ∈ s.down ∧ l.file t = none
    · obtain ⟨sb, found, -⟩ := new t fresh.1 fresh.2
      simp [found, fresh.1]
    · rw [same t fresh]
      refine ⟨.inl, fun either => either.elim id fun member => ?_⟩
      exact Option.isSome_iff_ne_none.mpr fun absent => fresh ⟨member, absent⟩
    · obtain ⟨sb', found', keeps⟩ := new t fresh.1 fresh.2
      obtain rfl := Option.some.inj (found.symm.trans found')
      rwa [sound.silent t fresh.2]
    · exact sound.kept t sb ((same t fresh).symm.trans found)
    · exact fresh.2
    · exact (same t fresh).symm.trans absent
  · have present : (l.file s).isSome := by
      cases found : l.file s with
      | none => rw [found] at there; exact absurd rfl there
      | some sb => rfl
    refine ⟨l.file, l.asked, ?_, fun t => ⟨.inl, fun either => either.elim id fun member => ?_⟩, sound.kept,
      fun _ absent => absent⟩
    · rw [ensureFiles, run_get, if_neg there]
      rfl
    · exact sound.lower member present

theorem recorded_add (sent : List (Severity × Str)) (s t : Severity) (data : Str) :
    recorded (sent ++ [(s, data)]) t = recorded sent t ++ if t ∈ s.targets then [data] else [] := by
  rw [recorded, List.filter_append, List.map_append]
  congr 1
  by_cases target : t ∈ s.targets <;> simp [target]

theorem Sound.add (sound : Sound disk l.file sent) {s : Severity} {files after : Severity → Option SyncBuffer}
    {data : Str} (there : ∀ t, (files t).isSome ↔ (l.file t).isSome ∨ t ∈ s.down)
    (kept : ∀ t sb, files t = some sb → Keeps disk t sb (recorded sent t))
    (absent : ∀ t, files t = none → l.file t = none)
    (outside : ∀ t, t ∉ s.targets → after t = files t)
    (inside : ∀ t ∈ s.targets, (files t).isSome ∧
      ∃ sb, after t = some sb ∧ Keeps disk t sb (recorded sent t ++ [data])) :
    Sound disk after (sent ++ [(s, data)]) := by
  have present (t : Severity) : (after t).isSome ↔ (files t).isSome := by
    by_cases target : t ∈ s.targets
    · obtain ⟨before, sb, found, -⟩ := inside t target
      simp [found, before]
    · rw [outside t target]
  refine ⟨fun t => ?_, fun t sb found => ?_, fun t gone => ?_⟩
  · rw [present, there, sound.opened]
    simp
  all_goals rw [recorded_add]; by_cases target : t ∈ s.targets
  · obtain ⟨-, sb', found', keeps⟩ := inside t target
    obtain rfl := Option.some.inj (found.symm.trans found')
    rwa [if_pos target]
  · rw [if_neg target, List.append_nil]
    exact kept t sb ((outside t target).symm.trans found)
  · obtain ⟨-, sb', found', -⟩ := inside t target
    cases gone.symm.trans found'
  · rw [if_neg target, List.append_nil]
    exact sound.silent t (absent t ((outside t target).symm.trans gone))

def told (l : Logging) (s : Severity) (data : Str) : Logging :=
  { l with stderr := l.stderr ++ if l.loud s then data else [] }

theorem record_eq (parsed : l.parsed = true) (logs : l.toStderr = false) (s : Severity) (data : Str) :
    record disk s data l = (ensureFiles disk s data >>= fun _ => writeAll disk data s.targets) (told l s data) := by
  rw [record, run_get, if_neg (by simp [parsed]), if_neg (by simp [logs])]
  cases loud : l.loud s with
  | true =>
      simp only [told, loud, if_true]
      rfl
  | false => simp only [told, loud, Bool.false_eq_true, if_false, List.append_nil]

theorem record_run (endless : Endless disk) (sound : Sound disk l.file sent) (parsed : l.parsed = true)
    (logs : l.toStderr = false) (s : Severity) (data : Str) (begun : s = .debugLog → (l.file .infoLog).isSome) :
    ∃ files n, record disk s data l = .ok () { told l s data with file := files, asked := n } ∧
      Sound disk files (sent ++ [(s, data)]) := by
  obtain ⟨files, n, ensured, there, kept, absent⟩ := ensureFiles_run (l := told l s data) endless sound s data
  have targeted (t : Severity) (target : t ∈ s.targets) : (files t).isSome := by
    refine (there t).mpr ((target_down target).elim .inr fun low => .inl ?_)
    rw [low.2]
    exact begun low.1
  obtain ⟨after, m, written, outside, inside⟩ := writeAll_run (l := { told l s data with file := files, asked := n })
    endless data (targets_nodup s) fun t target => by
      obtain ⟨sb, found⟩ := Option.isSome_iff_exists.mp (targeted t target)
      exact ⟨sb, found, kept t sb found⟩
  refine ⟨after, m, ?_, sound.add there kept absent outside fun t target => ⟨targeted t target, inside t target⟩⟩
  rw [record_eq parsed logs]
  exact (run_bind_ok ensured).trans written

/-- A debug message creates no file, and there is none that it could be written to. -/
theorem record_panic (disk : LogDisk) (none : ∀ s, l.file s = none) (parsed : l.parsed = true)
    (logs : l.toStderr = false) (data : Str) :
    ∃ l', record disk .debugLog data l = .error (.panic .nilDereference) l' ∧ l'.file = l.file := by
  let asked : Logging := { told l .debugLog data with asked := l.asked + 1 }
  refine ⟨asked, ?_, rfl⟩
  have ensured : ensureFiles disk .debugLog data (told l .debugLog data) = .ok () asked := by
    rw [ensureFiles, run_get, if_pos (by rw [told, none]; rfl), createFiles]
    rfl
  rw [record_eq parsed logs]
  refine (run_bind_ok ensured).trans (run_bind_error ?_)
  rw [write, run_get]
  simp only [asked, told, none]
  rfl

/-! ## A run of calls -/

def message : Call → Option (Severity × Str)
  | .printf s header message => some (s, terminated (header ++ message))
  | .flush => none

def sentBy (calls : List Call) : List (Severity × Str) := calls.filterMap message

def reported (l : Logging) (sent : List (Severity × Str)) (files : Severity → Option SyncBuffer)
    (n : Nat) : Logging :=
  { l with
    stderr := l.stderr ++ (sent.filter fun message => l.loud message.1).flatMap Prod.snd
    file := files
    asked := n
    lines := fun s => l.lines s + (sent.filter fun message => message.1 = s).length
    bytes := fun s =>
      l.bytes s + ((sent.filter fun message => message.1 = s).map fun message => message.2.length).sum }

theorem reported_reported (l : Logging) (first second : List (Severity × Str))
    (files files' : Severity → Option SyncBuffer)
    (n n' : Nat) : reported (reported l first files n) second files' n' = reported l (first ++ second) files' n' := by
  simp only [reported, List.filter_append, List.flatMap_append, List.append_assoc, List.length_append,
    List.map_append, List.sum_append, Nat.add_assoc]
  rfl

theorem reported_nil (l : Logging) (files : Severity → Option SyncBuffer) (n : Nat) :
    reported l [] files n = { l with file := files, asked := n } := by
  simp [reported]

theorem count_told (l : Logging) (s : Severity) (data : Str) (files : Severity → Option SyncBuffer) (n : Nat) :
    Logging.count { told l s data with file := files, asked := n } s data = reported l [(s, data)] files n := by
  simp only [Logging.count, told, reported]
  congr 1
  · cases loud : l.loud s <;> simp [loud]
  · funext t
    by_cases same : s = t
    · subst same; simp
    · simp [same, Function.update_of_ne (Ne.symm same)]
  · funext t
    by_cases same : s = t
    · subst same; simp
    · simp [same, Function.update_of_ne (Ne.symm same)]

def AllFlushed (files : Severity → Option SyncBuffer) : Prop := ∀ s sb, files s = some sb → Flushed sb

theorem Sound.flush (sound : Sound disk l.file sent) :
    Sound disk l.flushAll.file sent ∧ AllFlushed l.flushAll.file := by
  have files (s : Severity) : l.flushAll.file s = (l.file s).map SyncBuffer.flush := rfl
  refine ⟨⟨fun s => ?_, fun s sb found => ?_, fun s absent => ?_⟩, fun s sb found => ?_⟩
  · rw [files, Option.isSome_map, sound.opened]
  · obtain ⟨before, there, rfl⟩ := Option.map_eq_some_iff.mp (files s ▸ found)
    exact (sound.kept s before there).flush.1
  · exact sound.silent s (Option.map_eq_none_iff.mp (files s ▸ absent))
  · obtain ⟨before, there, rfl⟩ := Option.map_eq_some_iff.mp (files s ▸ found)
    exact (sound.kept s before there).flush.2

theorem perform_run (endless : Endless disk) (sound : Sound disk l.file sent) (parsed : l.parsed = true)
    (logs : l.toStderr = false) (call : Call) (alive : ∀ data, message call ≠ some (.fatalLog, data))
    (begun : ∀ data, message call = some (.debugLog, data) → (l.file .infoLog).isSome) :
    ∃ files n, perform disk call l = .ok () (reported l (sentBy [call]) files n) ∧
      Sound disk files (sent ++ sentBy [call]) ∧ (call = .flush → AllFlushed files) := by
  cases call with
  | printf s header body =>
      obtain ⟨files, n, recorded, next⟩ := record_run endless sound parsed logs s (terminated (header ++ body))
        fun low => begun _ (by rw [low]; rfl)
      have calm : s ≠ .fatalLog := fun fatal => alive _ (by rw [fatal]; rfl)
      refine ⟨files, n, ?_, next, fun same => by cases same⟩
      rw [perform, printf, output]
      refine (run_bind_ok recorded).trans ?_
      rw [if_neg calm]
      exact congrArg (EStateM.Result.ok ()) (count_told ..)
  | flush =>
      obtain ⟨next, empty⟩ := sound.flush
      refine ⟨l.flushAll.file, l.asked, ?_, ?_, fun _ => empty⟩
      · exact congrArg (EStateM.Result.ok ()) (reported_nil ..).symm
      · exact (List.append_nil sent).symm ▸ next

theorem info_down {s : Severity} (proper : s ≠ .debugLog) : .infoLog ∈ s.down := by
  cases s <;> first | exact absurd rfl proper | decide

def firstSeverity (calls : List Call) : Option Severity := (sentBy calls).head?.map Prod.fst

/-- Calls that are not fatal, of which no debug message comes before the file that it goes to. -/
theorem run_reported (endless : Endless disk) (sound : Sound disk l.file sent) (parsed : l.parsed = true)
    (logs : l.toStderr = false) (calls : List Call) (alive : ∀ message ∈ sentBy calls, message.1 ≠ .fatalLog)
    (begun : firstSeverity calls = some .debugLog → (l.file .infoLog).isSome) :
    ∃ files n, run disk calls l = .ok () (reported l (sentBy calls) files n) ∧
      Sound disk files (sent ++ sentBy calls) ∧ (calls.getLast? = some .flush → AllFlushed files) := by
  induction calls generalizing l sent with
  | nil =>
      refine ⟨l.file, l.asked, ?_, (List.append_nil sent).symm ▸ sound, fun last => by cases last⟩
      exact congrArg (EStateM.Result.ok ()) (reported_nil ..).symm
  | cons call rest ih =>
      have split : sentBy (call :: rest) = sentBy [call] ++ sentBy rest := List.filterMap_append (l := [call])
      have own {s : Severity} {data : Str} (sends : message call = some (s, data)) : sentBy [call] = [(s, data)] := by
        rw [sentBy, List.filterMap_cons_some sends]
        rfl
      obtain ⟨files, n, performed, next, flushed⟩ := perform_run endless sound parsed logs call
        (fun data sends => alive (.fatalLog, data) (by rw [split, own sends]; exact List.mem_cons_self ..) rfl)
        fun data sends => begun (by rw [firstSeverity, split, own sends]; rfl)
      -- the file of the debug messages is there for the rest of them
      have stays : firstSeverity rest = some .debugLog → (files .infoLog).isSome := by
        have already (there : (l.file .infoLog).isSome) : (files .infoLog).isSome := by
          obtain ⟨message, member, below⟩ := (sound.opened _).mp there
          exact (next.opened _).mpr ⟨message, List.mem_append_left _ member, below⟩
        intro low
        cases call with
        | flush => exact already (begun low)
        | printf s header text =>
            by_cases debug : s = .debugLog
            · exact already (begun (by rw [debug]; rfl))
            · exact (next.opened _).mpr ⟨_, List.mem_append_right _ (List.mem_cons_self ..), info_down debug⟩
      obtain ⟨files', n', ran, last, empty⟩ := ih (l := reported l (sentBy [call]) files n) next parsed logs
        (fun message member => alive message (by rw [split]; exact List.mem_append_right _ member)) stays
      refine ⟨files', n', ?_, ?_, fun final => ?_⟩
      · rw [run, split, ← reported_reported]
        exact (run_bind_ok performed).trans ran
      · rw [split, ← List.append_assoc]
        exact last
      · cases rest with
        | nil =>
            have same : files' = files := by
              have result := EStateM.Result.ok.inj ran
              exact (congrArg Logging.file result.2).symm
            exact same ▸ flushed (Option.some.inj final)
        | cons second more => exact empty (by rwa [List.getLast?_cons_cons] at final)

theorem sound_fresh (fresh : ∀ s, l.file s = none) : Sound disk l.file [] := by
  refine ⟨fun s => ?_, fun s sb found => ?_, fun s _ => rfl⟩
  · simp [fresh s]
  · cases (fresh s).symm.trans found

theorem run_panic (none : ∀ s, l.file s = none) (parsed : l.parsed = true) (logs : l.toStderr = false)
    (calls : List Call) (first : firstSeverity calls = some .debugLog) :
    ∃ l', run disk calls l = .error (.panic .nilDereference) l' ∧ ∀ s, l'.file s = .none := by
  induction calls generalizing l with
  | nil => cases first
  | cons call rest ih =>
      cases call with
      | flush =>
          have flushed : ∀ s, l.flushAll.file s = .none := fun s => Option.map_eq_none_iff.mpr (none s)
          exact ih (l := l.flushAll) flushed parsed logs first
      | printf s header text =>
          obtain rfl : s = .debugLog := Option.some.inj first
          obtain ⟨l', stopped, same⟩ := record_panic disk none parsed logs (terminated (header ++ text))
          refine ⟨l', ?_, same ▸ none⟩
          rw [run, perform, printf, output]
          exact run_bind_error (run_bind_error stopped)

/-! ## The names of the files -/

theorem logName_ne (disk : LogDisk) {s t : Severity} (other : s ≠ t) (a b : LogTime) :
    logName disk s.name a ≠ logName disk t.name b := by
  intro same
  simp only [logName, List.append_assoc, List.append_cancel_left_eq] at same
  have heads : s.name.head? = t.name.head? := by
    have front (s : Severity) (rest : Str) : (s.name ++ rest).head? = s.name.head? := by
      cases s <;> rfl
    rw [← front s, same, front t]
  revert heads
  cases s <;> cases t <;> first | exact absurd rfl other | decide +kernel

theorem Keeps.apart {s t : Severity} {sb sb' : SyncBuffer} {records records' : List Str} (other : s ≠ t)
    (keeps : Keeps disk s sb records) (keeps' : Keeps disk t sb' records') :
    List.Disjoint sb.created sb'.created := by
  obtain ⟨old, last, holds, -⟩ := keeps
  obtain ⟨old', last', holds', -⟩ := keeps'
  intro path here there
  rw [holds.created] at here
  rw [holds'.created] at there
  obtain ⟨volume, member, rfl⟩ := List.mem_map.mp here
  obtain ⟨volume', member', same⟩ := List.mem_map.mp there
  refine logName_ne disk other volume.time volume'.time ?_
  rw [← holds.named volume member, ← holds'.named volume' member', same]

/-! ## The last message -/

theorem writeTrace_eq (endless : Endless disk) (trace : Str) {list : List Severity}
    (each : ∀ t ∈ list, ∃ sb records, l.file t = some sb ∧ Keeps disk t sb records) :
    writeTrace disk trace list l = writeAll disk trace list l := by
  induction list generalizing l with
  | nil => rfl
  | cons s rest ih =>
      obtain ⟨sb, records, found, keeps⟩ := each s (List.mem_cons_self ..)
      obtain ⟨sb', n, written, more⟩ := write_run endless found keeps trace
      have later := ih (l := { l with file := Function.update l.file s (some sb'), asked := n }) fun t member => by
        by_cases same : t = s
        · subst same
          exact ⟨sb', _, Function.update_self .., more⟩
        · simp only [Function.update_of_ne same]
          exact each t (List.mem_cons_of_mem _ member)
      have there : (l.file s).isSome := found ▸ rfl
      rw [writeAll, run_bind_ok written, ← later, writeTrace, run_get, if_pos there, run_bind_ok written]

theorem die_run (endless : Endless disk) (sound : Sound disk l.file sent) (logs : l.toStderr = false)
    (there : ∀ s ∈ Severity.fatalLog.down, (l.file s).isSome) :
    ∃ l', die disk l = .error (.exit (if l.fatalNoStacks then 1 else 255)) l' ∧
      l'.stderr = l.stderr ++ (if l.fatalNoStacks then [] else disk.stacksOf false) ∧
      ∀ s ∈ Severity.fatalLog.down, ∃ sb, l'.file s = some sb ∧ Flushed sb ∧
        Keeps disk s sb (recorded sent s ++ if l.fatalNoStacks then [] else [disk.stacksOf true]) := by
  have each (s : Severity) (member : s ∈ Severity.fatalLog.down) :
      ∃ sb, l.file s = some sb ∧ Keeps disk s sb (recorded sent s) := by
    obtain ⟨sb, found⟩ := Option.isSome_iff_exists.mp (there s member)
    exact ⟨sb, found, sound.kept s sb found⟩
  cases trace : l.fatalNoStacks with
  | true =>
      refine ⟨l.flushAll, ?_, (List.append_nil _).symm, fun s member => ?_⟩
      · rw [die, run_get, if_pos trace]
        rfl
      · obtain ⟨sb, found, keeps⟩ := each s member
        refine ⟨sb.flush, congrArg (Option.map SyncBuffer.flush) found, keeps.flush.2, ?_⟩
        simp only [if_true, List.append_nil]
        exact keeps.flush.1
  | false =>
      let dying : Logging := { l with stderr := l.stderr ++ disk.stacksOf false, exitFunc := true }
      obtain ⟨files, n, written, -, inside⟩ := writeAll_run (l := dying) endless (disk.stacksOf true)
        (down_nodup .fatalLog) each
      have traced := (writeTrace_eq (l := dying) endless (disk.stacksOf true) fun s member => by
        obtain ⟨sb, found, keeps⟩ := each s member
        exact ⟨sb, _, found, keeps⟩).trans written
      refine ⟨Logging.flushAll { dying with file := files, asked := n }, ?_, rfl, fun s member => ?_⟩
      · rw [die, run_get, if_neg (by simp [trace])]
        refine (run_get _ l).trans ?_
        rw [if_pos (by simp [logs])]
        exact run_bind_ok (f := fun _ => modify Logging.flushAll >>= fun _ => throw (Stop.exit 255)) traced
      · obtain ⟨sb, found, keeps⟩ := inside s member
        exact ⟨sb.flush, congrArg (Option.map SyncBuffer.flush) found, keeps.flush.2, keeps.flush.1⟩

theorem run_append {front back : List Call} {l' : Logging} (ran : run disk front l = .ok () l') :
    run disk (front ++ back) l = run disk back l' := by
  induction front generalizing l with
  | nil => cases ran; rfl
  | cons call rest ih =>
      rw [run] at ran
      cases first : perform disk call l with
      | error stop l1 => rw [run_bind_error first] at ran; cases ran
      | ok u l1 =>
          rw [run_bind_ok first] at ran
          rw [List.cons_append, run, run_bind_ok first]
          exact ih ran

/-- Up to the first fatal message every message is written once and in order, to each of the files it goes to and
however these are rotated: it is in one file as a whole, and a file is beyond its size only with a single message in
it. A file is on the disk unless a later one of its severity has the same name, that is, was created in the same
second. The files of errors and of fatal messages have none. If the first message is a debug message, there is no
file for it, and the process panics. -/
theorem log_run (endless : Endless disk) (fresh : ∀ s, l.file s = none) (parsed : l.parsed = true)
    (logs : l.toStderr = false) (calls : List Call) (alive : ∀ message ∈ sentBy calls, message.1 ≠ .fatalLog) :
    (firstSeverity calls = some .debugLog →
      ∃ l', run disk calls l = .error (.panic .nilDereference) l' ∧ ∀ s, l'.file s = none) ∧
    (firstSeverity calls ≠ some .debugLog →
      ∃ files n, run disk calls l = .ok () (reported l (sentBy calls) files n) ∧ Sound disk files (sentBy calls) ∧
        (∀ s sb, files s = some sb → sb.created.Nodup → Complete disk s sb (recorded (sentBy calls) s)) ∧
        (∀ s t sb sb', files s = some sb → files t = some sb' → s ≠ t → List.Disjoint sb.created sb'.created) ∧
        (calls.getLast? = some .flush → AllFlushed files)) := by
  refine ⟨run_panic fresh parsed logs calls, fun first => ?_⟩
  obtain ⟨files, n, ran, sound, flushed⟩ :=
    run_reported endless (sound_fresh fresh) parsed logs calls alive fun low => absurd low first
  refine ⟨files, n, ran, sound, fun s sb found => (sound.kept s sb found).complete, ?_, flushed⟩
  intro s t sb sb' found found' other
  exact (sound.kept s sb found).apart other (sound.kept t sb' found')

/-- A file is full with nine bytes behind its header, and a second passes between two questions. -/
def smallDisk : LogDisk where
  logDirs := [text "log"]
  logFilename := text "signaling"
  pid := 7
  host := text "host"
  built := text "gc"
  clock n := ⟨2026, 1, 1, 0, 0, n⟩
  osCreate _ := .ok none
  maxSize := 165
  closedError := "file already closed"
  stacksOf _ := text "goroutine\n"

theorem smallDisk_endless : Endless smallDisk := ⟨by decide, fun _ => rfl⟩

def smallCalls : List Call :=
  [.flush, .printf .warningLog (text "W] ") (text "a"), .printf .debugLog (text "D] ") (text "b\n"),
    .printf .errorLog (text "E] ") (text "c"), .flush]

def fileOf (s : Severity) : EStateM.Result Stop Logging Unit → Option SyncBuffer
  | .ok _ l => l.file s
  | .error _ l => l.file s

theorem log_run_rotated :
    (∃ l', run smallDisk [.printf .debugLog (text "D] ") (text "b")] {} = .error (.panic .nilDereference) l') ∧
    ∃ files n sb, run smallDisk smallCalls {} = .ok () (reported {} (sentBy smallCalls) files n) ∧ AllFlushed files ∧
      files .infoLog = some sb ∧ sb.created.length = 3 ∧
      Complete smallDisk .infoLog sb [text "W] a\n", text "D] b\n", text "E] c\n"] := by
  constructor
  · obtain ⟨l', stopped, -⟩ := (log_run (l := {}) smallDisk_endless (fun _ => rfl) rfl rfl
      [.printf .debugLog (text "D] ") (text "b")] (by decide +kernel)).1 (by decide +kernel)
    exact ⟨l', stopped⟩
  · obtain ⟨files, n, ran, -, complete, -, flushed⟩ := (log_run (l := {}) smallDisk_endless (fun _ => rfl) rfl rfl
      smallCalls (by decide +kernel)).2 (by decide +kernel)
    have three : ((fileOf .infoLog (run smallDisk smallCalls {})).any fun sb =>
        decide (sb.created.Nodup ∧ sb.created.length = 3)) = true := by decide +kernel
    rw [ran] at three
    obtain ⟨sb, found, holds⟩ := (Option.any_eq_true _ _).1 three
    obtain ⟨different, length⟩ := of_decide_eq_true holds
    have records : recorded (sentBy smallCalls) .infoLog = [text "W] a\n", text "D] b\n", text "E] c\n"] := by
      decide +kernel
    exact ⟨files, n, sb, ran, flushed rfl, found, length, records ▸ complete .infoLog sb found different⟩

/-- On a clock that stands still, each file of three replaces the one before. -/
example :
    ((fileOf .infoLog (run { smallDisk with clock := fun _ => ⟨2026, 1, 1, 0, 0, 0⟩ } smallCalls {})).any fun sb =>
    sb.created.length = 3 ∧ sb.closed = []) = true := by decide +kernel

theorem mem_fatal_down {s : Severity} (proper : s ≠ .debugLog) : s ∈ Severity.fatalLog.down := by
  cases s <;> first | exact absurd rfl proper | decide

/-- A fatal message ends the process with the message and then the stacks of the goroutines at the end of every
file it goes to, all of them flushed; the files before are on the disk unless one has the name of a later one. -/
theorem fatal_run (endless : Endless disk) (fresh : ∀ s, l.file s = none) (parsed : l.parsed = true)
    (logs : l.toStderr = false) (calls : List Call) (alive : ∀ message ∈ sentBy calls, message.1 ≠ .fatalLog)
    (begun : firstSeverity calls ≠ some .debugLog) (header message : Str) :
    let sent := sentBy calls ++ [(.fatalLog, terminated (header ++ message))]
    ∃ l', run disk (calls ++ [.printf .fatalLog header message]) l =
        .error (.exit (if l.fatalNoStacks then 1 else 255)) l' ∧
      l'.stderr = l.stderr ++ (sent.filter fun message => l.loud message.1).flatMap Prod.snd ++
        (if l.fatalNoStacks then [] else disk.stacksOf false) ∧
      ∀ s ≠ .debugLog, ∃ sb, l'.file s = some sb ∧ Flushed sb ∧
        Keeps disk s sb (recorded sent s ++ if l.fatalNoStacks then [] else [disk.stacksOf true]) ∧
        (sb.created.Nodup →
          Complete disk s sb (recorded sent s ++ if l.fatalNoStacks then [] else [disk.stacksOf true])) := by
  intro sent
  let data := terminated (header ++ message)
  obtain ⟨files, n, ran, sound, -⟩ :=
    run_reported endless (sound_fresh fresh) parsed logs calls alive fun low => absurd low begun
  obtain ⟨files', n', recorded, next⟩ := record_run (l := reported l (sentBy calls) files n) endless sound parsed logs
    .fatalLog data fun debug => by cases debug
  obtain ⟨l', died, told, held⟩ := die_run
    (l := { told (reported l (sentBy calls) files n) .fatalLog data with file := files', asked := n' })
    endless next logs
    fun s member => (next.opened s).mpr ⟨_, List.mem_append_right _ (List.mem_singleton_self _), member⟩
  refine ⟨l', ?_, ?_, fun s proper => ?_⟩
  · rw [run_append ran, run, perform, printf, output]
    refine run_bind_error ((run_bind_ok recorded).trans ?_)
    rw [if_pos rfl]
    exact run_bind_error died
  · have last : (if l.loud .fatalLog then data else []) =
        ([(Severity.fatalLog, data)].filter fun message => l.loud message.1).flatMap Prod.snd := by
      cases loud : l.loud .fatalLog <;> simp [loud]
    refine told.trans ?_
    rw [List.filter_append, List.flatMap_append, ← last, ← List.append_assoc]
    rfl
  · obtain ⟨sb, found, flushed, keeps⟩ := held s (mem_fatal_down proper)
    exact ⟨sb, found, flushed, keeps, keeps.complete⟩

theorem fatal_run_first :
    ∃ l' sb, run smallDisk [.printf .fatalLog (text "F] ") (text "gone")] {} = .error (.exit 255) l' ∧
      l'.file .infoLog = some sb ∧ Flushed sb ∧ sb.created.length = 2 ∧
      Complete smallDisk .infoLog sb [text "F] gone\n", text "goroutine\n"] := by
  obtain ⟨l', died, -, held⟩ := fatal_run (l := {}) smallDisk_endless (fun _ => rfl) rfl rfl []
    (by decide) (by decide)
    (text "F] ") (text "gone")
  obtain ⟨sb, found, flushed, -, complete⟩ := held .infoLog (by decide)
  have two : ((fileOf .infoLog (run smallDisk [.printf .fatalLog (text "F] ") (text "gone")] {})).any fun sb =>
      decide (sb.created.Nodup ∧ sb.created.length = 2)) = true := by decide +kernel
  rw [List.nil_append] at died
  rw [died, fileOf, found] at two
  obtain ⟨different, length⟩ := of_decide_eq_true two
  refine ⟨l', sb, died, found, flushed, length, ?_⟩
  have records : recorded (sentBy [] ++ [(.fatalLog, terminated (text "F] " ++ text "gone"))]) .infoLog ++
      [text "goroutine\n"] = [text "F] gone\n", text "goroutine\n"] := by decide +kernel
  rw [← records]
  exact complete different

end Xrtc.Proof.Glog
