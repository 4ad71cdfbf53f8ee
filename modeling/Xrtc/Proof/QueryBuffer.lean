import Xrtc.Proof.ShortConnection
import Xrtc.Proof.Watchers

/-!
# The room for a body

What `read_query` asks the socket for once a header is accepted, and whether the buffer has room for it.
The block behind the string always has; `sh->free` says so only while the room fits an `int`.
-/

namespace Xrtc.Proof.QueryBuffer
open Server Base Lib Framing ShortConnection

variable {request : Nat → List UInt8 → List UInt8 → Int} {s data : List UInt8} {b b' : Buffered}
  {c : TcpConnection} {e : ReadEvent} {fuel n : Nat}

/-- The next read asks for `bytes_expected` bytes, they fit the block behind the string, and the
assertions of `sdsIncrLen` hold for any part of them. -/
structure ReadsExactly (c : TcpConnection) (size : Nat) : Prop where
  asked : c.readLen = c.bytesExpected
  room : ∃ room, sdsMakeRoomFor c.querybuf c.readLen = some room ∧ (c.bytesExpected : Int) ≤ room.free ∧
    sdslen c.querybuf + c.readLen ≤ sdsBlockSize size c.querybuf c.readLen ∧
    ∀ incr ≤ c.readLen, sdsIncrLenAsserts room incr ∧ sdslen room + incr < 2 ^ 31

/-- The bytes that come after the read that completes the header, `s` being there before. -/
def behindHeader : List UInt8 → List ReadEvent → Nat
  | _, [] => 0
  | s, e :: reads =>
      if s.length < xheadSize then behindHeader (s ++ (sockReadData e.result).getD []) reads
      else (received (e :: reads)).length

/-- `expected s` and the prealloc do not fit an `int` together, but `expected s` alone does. -/
def Oversized (s : List UInt8) : Prop := 2 ^ 31 ≤ expected s + sdsMaxPrealloc ∧ expected s < 2 ^ 31

/-- The block of a connection that has received `s`, the last `n` bytes behind the read that completed
the header. For an oversized body it grows once, at the first of these reads. -/
structure Fits (request : Nat → List UInt8 → List UInt8 → Int) (s : List UInt8) (n : Nat) (b : Buffered) : Prop
    extends Follows request s b.session where
  behind : n ≤ s.length
  backed : ∀ c, b.session.life = .opened c → expected s < 2 ^ 31 → c.querybuf.Backed b.size
  bound : b.size ≤ s.length + expected s + sdsMaxPrealloc
  head : s.length < xheadSize → n = 0 ∧ b.size < sdsMaxPrealloc
  wraps : Oversized s → n ≤ sdsMaxPrealloc →
    n = 0 ∧ b.size < sdsMaxPrealloc ∨ b.size + n = s.length + expected s + sdsMaxPrealloc

theorem start_fits (request : Nat → List UInt8 → List UInt8 → Int) (fd : Int)
    (ioWatcher timerWatcher now : Nat) : Fits request [] 0 (Buffered.start fd ioWatcher timerWatcher now) := by
  have little : (Buffered.start fd ioWatcher timerWatcher now).size < sdsMaxPrealloc := Nat.zero_lt_succ _
  refine ⟨start_follows request fd ioWatcher timerWatcher now, Nat.zero_le _, fun c opened _ => ?_,
    Nat.zero_le _, fun _ => ⟨rfl, little⟩, fun _ _ => .inl ⟨rfl, little⟩⟩
  cases opened
  exact sdsempty_backed

section

variable (fits : Fits request s n b) (opened : b.session.life = .opened c)
include fits opened

theorem Fits.asks : c.querybuf.buf = s ∧ c.bytesExpected = expected s ∧ s.length < 2 ^ 31 := by
  obtain ⟨⟨life, calls⟩, size⟩ := b
  cases opened
  exact ⟨fits.tracks.buf, fits.tracks.expected, fits.short c rfl⟩

theorem Fits.len : sdslen c.querybuf = s.length := by
  rw [sdslen, (fits.asks opened).1]

theorem Fits.readLen (small : expected s < 2 ^ 31) : c.readLen = expected s := by
  rw [readLen_eq ((fits.asks opened).2.1 ▸ small), (fits.asks opened).2.1]

theorem Fits.room_eq (small : expected s < 2 ^ 31) :
    b.room = if s.length + expected s ≤ b.size then b.size else sdsNewlen s.length (expected s) := by
  have block := (fits.backed c opened small).blockSize small
  rw [fits.len opened] at block
  rw [Buffered.room, opened]
  dsimp only
  rw [fits.readLen opened small, block]

theorem Fits.room_head (short : s.length < xheadSize) : b.room < sdsMaxPrealloc := by
  have size := (fits.head short).2
  have asks := expected_of_lt short
  rw [fits.room_eq opened (by rw [asks]; decide), asks]
  split
  · exact size
  · rw [sdsNewlen_of_lt (by unfold xheadSize sdsMaxPrealloc at *; omega)]
    unfold xheadSize sdsMaxPrealloc at *
    omega

theorem Fits.room_le (small : expected s < 2 ^ 31) :
    b.room ≤ s.length + expected s + sdsMaxPrealloc := by
  have short := (fits.asks opened).2.2
  rw [fits.room_eq opened small]
  split
  · exact fits.bound
  · exact (sdsNewlen_bounds _ _ (by omega)).2

theorem Fits.room_oversized (oversized : Oversized s) (early : n ≤ sdsMaxPrealloc) :
    b.room + n = s.length + expected s + sdsMaxPrealloc := by
  obtain ⟨large, small⟩ := oversized
  have short := (fits.asks opened).2.2
  have grows : sdsMaxPrealloc ≤ s.length + expected s := by
    unfold sdsMaxPrealloc at *
    omega
  rw [fits.room_eq opened small]
  rcases fits.wraps ⟨large, small⟩ early with ⟨none, size⟩ | grown
  · rw [if_neg (by omega), sdsNewlen_of_le grows (by omega), none]
    rfl
  · rw [if_pos (by omega)]
    exact grown

theorem Fits.made (small : expected s < 2 ^ 31) : ∃ room, sdsMakeRoomFor c.querybuf c.readLen = some room ∧
    sdslen room = s.length ∧ room.Backed b.room ∧ s.length + expected s ≤ b.room := by
  have len := fits.len opened
  have short := (fits.asks opened).2.2
  have asked := fits.readLen opened small
  obtain ⟨room, made⟩ := sdsMakeRoomFor_some c.querybuf c.readLen (by omega)
  have backed := sdsMakeRoomFor_backed (fits.backed c opened small) (by omega) (by omega) made
  rw [len, asked] at backed
  rw [Buffered.room, opened]
  dsimp only
  rw [asked] at made ⊢
  refine ⟨room, made, ?_, backed⟩
  rw [sdslen, sdsMakeRoomFor_buf made, ← sdslen, len]

theorem Fits.readsExactly_iff :
    ReadsExactly c b.size ↔ s.length + expected s < 2 ^ 31 ∧ b.room < s.length + 2 ^ 31 := by
  obtain ⟨buf, asks, short⟩ := fits.asks opened
  have len := fits.len opened
  have block : sdsBlockSize b.size c.querybuf c.readLen = b.room := by rw [Buffered.room, opened]
  by_cases small : expected s < 2 ^ 31
  · have asked := fits.readLen opened small
    obtain ⟨room, made, roomLen, backed, enough⟩ := fits.made opened small
    constructor
    · rintro ⟨-, room', made', free, -, stores⟩
      cases made.symm.trans made'
      have last := (stores c.readLen le_rfl).2
      refine ⟨by omega, ?_⟩
      rw [← roomLen]
      exact (backed.free_iff (by omega)).1 (asks ▸ free)
    · rintro ⟨fitsInt, roomInt⟩
      rw [← roomLen] at roomInt enough
      refine ⟨asked.trans asks.symm, room, made, asks ▸ (backed.free_iff enough).2 roomInt, by omega, ?_⟩
      intro incr within
      exact ⟨backed.asserts (by omega) roomInt, by omega⟩
  · refine ⟨fun exact => ?_, fun ⟨fitsInt, _⟩ => by omega⟩
    have huge := toSizeT_toInt_huge (Nat.not_lt.1 small) (expected_lt s)
    have asked := exact.asked
    rw [TcpConnection.readLen, asks] at asked
    have := expected_lt s
    omega

theorem Fits.length_lt (header : HasHeader s) : s.length < 65535 + bodyLen s := by
  have tracks := fits.tracks
  obtain ⟨⟨life, calls⟩, size⟩ := b
  cases opened
  cases tracks with
  | head short => exact absurd header.1 (Nat.not_le.2 short)
  | body _ short =>
      unfold xheadSize at short
      omega
  | served _ _ _ short => exact short

end

/-! ## The reads -/

theorem fill_backed {c' : TcpConnection} (fits : Fits request s n b) (opened : b.session.life = .opened c)
    (asked : data.length ≤ toSizeT (toInt (expected s))) (got : sockReadData e.result = some data)
    (enters : Enters s data e c c') : c'.querybuf.Backed b.room := by
  obtain ⟨room, made, roomLen, backed, enough⟩ := fits.made opened enters.small
  obtain ⟨room', data', made', got', -, grown⟩ := fill_read enters.filled
  cases made.symm.trans made'
  cases got.symm.trans got'
  rw [toSizeT_toInt enters.small] at asked
  rcases grown with ⟨-, same⟩ | grown
  · rwa [same]
  · exact sdsIncrLen_backed backed (by omega) grown

theorem readQuery_enters {session session' : Session} (follows : Follows request s session)
    (got : sockReadData e.result = some data) (read : session.readQuery request fuel e = some session')
    (opened : session'.life = .opened c) :
    Follows request (s ++ data) session' ∧
      ∃ c₀ c₁, session.life = .opened c₀ ∧ Enters s data e c₀ c₁ ∧ c.querybuf = c₁.querybuf := by
  rcases readQuery_inv read with ⟨-, -, stopped⟩ | ⟨c₀, c₁, result, before, filled, done, rfl, -⟩
  · exact absurd opened (stopped c)
  obtain ⟨life, calls⟩ := session
  obtain rfl : life = .opened c₀ := before
  rcases readQuery_cases fuel follows got with ⟨session₂, read₂, stops⟩ | ⟨c₂, enters, -⟩
  · cases read.symm.trans read₂
    generalize Session.after result = session' at stops opened
    cases stops <;> cases opened
  · have same : c₁ = c₂ := by
      have both := filled.symm.trans enters.filled
      exact (Prod.mk.inj (Option.some.inj both)).1
    subst same
    have querybuf : c.querybuf = c₁.querybuf := by
      rw [← after_opened opened, Watchers.process_same done]
    refine ⟨⟨?_, fun _ _ => enters.short⟩, c₀, c₁, rfl, enters, querybuf⟩
    by_cases beyond : Overruns request (s ++ data)
    · have refused := (process_overruns follows.tracks enters.same enters.buf beyond done).2
      simp only [Session.after, ne_eq, refused, not_false_eq_true, if_true] at opened
      cases opened
    · have processed := process_more fuel follows.tracks enters.same enters.buf beyond
      rwa [process_more_fuel 3 done] at processed

theorem readQuery_fits (fits : Fits request s n b) (got : sockReadData e.result = some data)
    (asked : data.length ≤ toSizeT (toInt (expected s))) (read : b.readQuery request fuel e = some b')
    (opened : b'.session.life = .opened c) :
    Fits request (s ++ data) (if s.length < xheadSize then 0 else n + data.length) b' := by
  obtain ⟨session', read', rfl⟩ := Option.map_eq_some_iff.1 read
  obtain ⟨follows, c₀, c₁, before, enters, -⟩ := readQuery_enters fits.toFollows got read' opened
  have length : (s ++ data).length = s.length + data.length := List.length_append
  have behind := fits.behind
  refine ⟨follows, ?_, fun c' opened' _ => ?_, ?_, fun short => ?_, fun oversized early => ?_⟩
  · split <;> omega
  · obtain ⟨-, c₀', c₁', before', enters', querybuf⟩ := readQuery_enters fits.toFollows got read' opened'
    rw [querybuf]
    exact fill_backed fits before' asked got enters'
  · dsimp only
    by_cases head : s.length < xheadSize
    · have := fits.room_head before head
      omega
    · rw [expected_append (Nat.not_lt.1 head)]
      have := fits.room_le before enters.small
      omega
  · have head : s.length < xheadSize := by omega
    rw [if_pos head]
    exact ⟨rfl, fits.room_head before head⟩
  · by_cases head : s.length < xheadSize
    · rw [if_pos head]
      exact .inl ⟨rfl, fits.room_head before head⟩
    · have same := expected_append (t := data) (Nat.not_lt.1 head)
      rw [if_neg head] at early ⊢
      rw [Oversized, same] at oversized
      have room := fits.room_oversized before oversized (by omega)
      refine .inr ?_
      dsimp only
      omega

theorem serve_opened {reads : List ReadEvent} (served : b.serve request fuel reads = some b')
    (opened : b'.session.life = .opened c) : ∃ c₀, b.session.life = .opened c₀ := by
  induction reads generalizing b with
  | nil =>
      cases served
      exact ⟨c, opened⟩
  | cons e reads ih =>
      obtain ⟨b₁, read, later⟩ := Option.bind_eq_some_iff.1 served
      obtain ⟨c₁, opened₁⟩ := ih later
      obtain ⟨session', read', rfl⟩ := Option.map_eq_some_iff.1 read
      rcases readQuery_inv read' with ⟨-, -, stopped⟩ | ⟨c₀, -, -, before, -⟩
      · exact absurd opened₁ (stopped c₁)
      · exact ⟨c₀, before⟩

theorem serve_cons {reads : List ReadEvent} (served : b.serve request fuel (e :: reads) = some b')
    (opened : b'.session.life = .opened c) : ∃ b₁ c₁ data, b.readQuery request fuel e = some b₁ ∧
      b₁.session.life = .opened c₁ ∧ sockReadData e.result = some data ∧
      b₁.serve request fuel reads = some b' := by
  obtain ⟨b₁, read, later⟩ := Option.bind_eq_some_iff.1 served
  obtain ⟨c₁, opened₁⟩ := serve_opened later opened
  obtain ⟨session', read', rfl⟩ := Option.map_eq_some_iff.1 read
  rcases readQuery_inv read' with ⟨-, -, stopped⟩ | ⟨c₀, c₂, -, -, filled, -⟩
  · exact absurd opened₁ (stopped c₁)
  · obtain ⟨-, data, -, got, -⟩ := fill_read filled
    exact ⟨_, c₁, data, read, opened₁, got, later⟩

theorem serve_body {reads : List ReadEvent} (long : xheadSize ≤ s.length) (fits : Fits request s n b)
    (offered : OfferedAfter s reads) (served : b.serve request fuel reads = some b')
    (opened : b'.session.life = .opened c) :
    Fits request (s ++ received reads) (n + (received reads).length) b' := by
  induction reads generalizing s n b with
  | nil =>
      cases served
      simpa [received] using fits
  | cons e reads ih =>
      obtain ⟨b₁, c₁, data, read, opened₁, got, later⟩ := serve_cons served opened
      obtain ⟨asked, offered'⟩ := offeredAfter_cons offered got
      have next := readQuery_fits fits got asked read opened₁
      rw [if_neg (Nat.not_lt.2 long)] at next
      rw [received_cons got, ← List.append_assoc, List.length_append, ← Nat.add_assoc]
      exact ih (by rw [List.length_append]; omega) next offered' later

theorem behindHeader_of_le (long : xheadSize ≤ s.length) (reads : List ReadEvent) :
    behindHeader s reads = (received reads).length := by
  cases reads with
  | nil => rfl
  | cons e reads => exact if_neg (Nat.not_lt.2 long)

theorem serve_fits {reads : List ReadEvent} (fits : Fits request s 0 b) (offered : OfferedAfter s reads)
    (served : b.serve request fuel reads = some b') (opened : b'.session.life = .opened c) :
    Fits request (s ++ received reads) (behindHeader s reads) b' := by
  induction reads generalizing s b with
  | nil =>
      cases served
      simpa [received, behindHeader] using fits
  | cons e reads ih =>
      by_cases head : s.length < xheadSize
      · obtain ⟨b₁, c₁, data, read, opened₁, got, later⟩ := serve_cons served opened
        obtain ⟨asked, offered'⟩ := offeredAfter_cons offered got
        have next := readQuery_fits fits got asked read opened₁
        rw [if_pos head] at next
        rw [received_cons got, ← List.append_assoc, behindHeader, if_pos head, got]
        exact ih next offered' later
      · have long := Nat.not_lt.1 head
        have rest := serve_body long fits offered served opened
        rwa [Nat.zero_add, ← behindHeader_of_le long] at rest

/-- Once the header is in, a read stays within the block unless `body_len` is no `int`. It is exact as
long as the buffered bytes and `body_len`, and the room that is made for it, fit an `int`; the first
`2^30 - 32768` values of `body_len` always do. -/
theorem body_reads_iff (request : Nat → List UInt8 → List UInt8 → Int) (fuel : Nat) (fd : Int)
    (ioWatcher timerWatcher now : Nat) (reads : List ReadEvent) (b : Buffered) (c : TcpConnection)
    (offered : Offered reads)
    (served : (Buffered.start fd ioWatcher timerWatcher now).serve request fuel reads = some b)
    (opened : b.session.life = .opened c) (header : HasHeader (received reads)) :
    c.bytesExpected = bodyLen (received reads) ∧
    (ReadsExactly c b.size ↔ bodyLen (received reads) + sdsMaxPrealloc < 2 ^ 31 + behindHeader [] reads ∧
      (received reads).length + bodyLen (received reads) < 2 ^ 31) ∧
    (bodyLen (received reads) ≤ 2 ^ 30 - 32768 → ReadsExactly c b.size) ∧
    (bodyLen (received reads) < 2 ^ 31 →
      sdslen c.querybuf + c.readLen ≤ sdsBlockSize b.size c.querybuf c.readLen) := by
  have fits := serve_fits (start_fits request fd ioWatcher timerWatcher now) offered served opened
  rw [List.nil_append] at fits
  have expects := expected_of_le header.1
  have short := fits.length_lt opened header
  have behind := fits.behind
  have exact : ReadsExactly c b.size ↔
      bodyLen (received reads) + sdsMaxPrealloc < 2 ^ 31 + behindHeader [] reads ∧
        (received reads).length + bodyLen (received reads) < 2 ^ 31 := by
    rw [fits.readsExactly_iff opened, expects, and_comm]
    refine and_congr_left fun fitsInt => ?_
    have small : expected (received reads) < 2 ^ 31 := by omega
    by_cases large : 2 ^ 31 ≤ expected (received reads) + sdsMaxPrealloc
    · have room := fits.room_oversized opened ⟨large, small⟩ (by omega)
      omega
    · have room := fits.room_le opened small
      omega
  refine ⟨(fits.asks opened).2.1.trans expects, exact, fun small => exact.2 ⟨?_, by omega⟩, fun small => ?_⟩
  · unfold sdsMaxPrealloc
    omega
  · obtain ⟨room, -, -, -, enough⟩ := fits.made opened (expects ▸ small)
    have block : sdsBlockSize b.size c.querybuf c.readLen = b.room := by rw [Buffered.room, opened]
    rw [block, fits.len opened, fits.readLen opened (expects ▸ small)]
    exact enough

def isOpened : Life → Bool
  | .opened _ => true
  | _ => false

theorem opened_of_isOpened {served : Option Buffered}
    (opens : (served.any fun b => isOpened b.session.life) = true) :
    ∃ b c, served = some b ∧ b.session.life = .opened c := by
  obtain ⟨b, ends, opened⟩ := (Option.any_eq_true _ _).1 opens
  cases life : b.session.life with
  | opened c => exact ⟨b, c, ends, life⟩
  | closed =>
      rw [life] at opened
      cases opened
  | aborted =>
      rw [life] at opened
      cases opened
  | broken =>
      rw [life] at opened
      cases opened

theorem body_reads_iff_push : ∃ b c, (Buffered.start 5 0 1 0).serve sampleHandler 3
      [⟨.received (clientHeader 11), 0⟩] = some b ∧ b.session.life = .opened c ∧ ReadsExactly c b.size := by
  obtain ⟨b, c, served, opened⟩ := opened_of_isOpened
    (show ((Buffered.start 5 0 1 0).serve sampleHandler 3 [⟨.received (clientHeader 11), 0⟩]).any
      (fun b => isOpened b.session.life) = true from rfl)
  have results := body_reads_iff _ _ _ _ _ _ _ b c (by decide) served opened (by decide)
  exact ⟨b, c, served, opened, results.2.2.1 (by decide)⟩

/-- A header that announces `2^31 - 2^20` bytes: the room made for them is `2^31` bytes, `sh->free`
is `-2^31` and the first assertion of `sdsIncrLen` is false for the first byte. -/
theorem body_reads_assertion : ∃ b c room, (Buffered.start 5 0 1 0).serve sampleHandler 3
      [⟨.received (clientHeader 0x7ff00000), 0⟩] = some b ∧ b.session.life = .opened c ∧
    ¬ ReadsExactly c b.size ∧ sdsMakeRoomFor c.querybuf c.readLen = some room ∧ room.free = -2 ^ 31 ∧
    ¬ sdsIncrLenAsserts room 1 := by
  obtain ⟨b, c, served, opened⟩ := opened_of_isOpened
    (show ((Buffered.start 5 0 1 0).serve sampleHandler 3 [⟨.received (clientHeader 0x7ff00000), 0⟩]).any
      (fun b => isOpened b.session.life) = true from rfl)
  have fits := serve_fits (start_fits sampleHandler 5 0 1 0) (by decide) served opened
  have length : ([] ++ received [⟨.received (clientHeader 0x7ff00000), 0⟩]).length = 36 := by decide
  have expects : expected ([] ++ received [⟨.received (clientHeader 0x7ff00000), 0⟩]) = 0x7ff00000 := by
    decide
  have first : behindHeader [] [⟨.received (clientHeader 0x7ff00000), 0⟩] = 0 := by decide
  have oversized : Oversized ([] ++ received [⟨.received (clientHeader 0x7ff00000), 0⟩]) := by
    rw [Oversized, expects]
    decide
  have size := fits.room_oversized opened oversized (by rw [first]; exact Nat.zero_le _)
  obtain ⟨room, made, len, backed, -⟩ := fits.made opened oversized.2
  have left : b.room - sdslen room = 2 ^ 31 := by
    unfold sdsMaxPrealloc at size
    omega
  have free : room.free = -2 ^ 31 := by
    rw [backed.room, left]
    decide
  refine ⟨b, c, room, served, opened, fun exact => ?_, made, free, fun asserts => ?_⟩
  · have := ((fits.readsExactly_iff opened).1 exact).2
    omega
  · have := asserts.1
    omega

end Xrtc.Proof.QueryBuffer
