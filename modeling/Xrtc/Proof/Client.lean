import Xrtc.Go.Client
import Xrtc.Proof.Response

/-!
# The connections of `Client.Do`
-/

namespace Xrtc.Proof.Client
open Go Lib Xrpc Response

variable {A : Type} {net : Network A} {c : Go.Client A} {picked : Picked A} {req : Option Request} {peer : Peer}
  {ledger : Ledger}

def exchange (req : Option Request) (peer : Peer) : Except DoError Go.Response :=
  match req with
  | none => .error (.panic .nilDereference)
  | some r =>
      match r.writeTo peer with
      | .error e => .error e
      | .ok w =>
          match w.flush peer.sink with
          | .error e => .error (.net e)
          | .ok _ =>
              match readResponse peer.stream with
              | .error e => .error (endsWith peer.ends e)
              | .ok (resp, _) => .ok resp

theorem close_last (ledger : Ledger) :
    Go.Client.close ledger.length (ledger ++ [0]) = .ok () (ledger ++ [1]) := by
  have closed : (ledger ++ [0]).modify ledger.length (· + 1) = ledger ++ [1] := by
    induction ledger with
    | nil => rfl
    | cons n ledger ih => exact congrArg (n :: ·) ih
  exact congrArg (EStateM.Result.ok ()) closed

theorem do_dialled {addr : A} {connected : Duration → Duration → Peer}
    (dialled : net.dial addr c.connectTimeout = .ok connected) :
    c.Do net (.addr addr) req ledger =
      match exchange req (connected c.readTimeout c.writeTimeout) with
      | .ok resp => .ok resp (ledger ++ [1])
      | .error e => .error e (ledger ++ [0]) := by
  generalize isPeer : connected c.readTimeout c.writeTimeout = peer
  have opened : Go.Client.dialTimeout net addr c.connectTimeout ledger =
      .ok (ledger.length, connected) (ledger ++ [0]) := by
    rw [Go.Client.dialTimeout, dialled]
    rfl
  have picked : Go.Client.pickServer (.addr addr) ledger = .ok addr ledger := rfl
  rw [Go.Client.Do, run_bind_ok picked, run_bind_ok opened]
  dsimp only
  rw [isPeer]
  unfold exchange
  cases req with
  | none => exact run_bind_error rfl
  | some r =>
      dsimp only
      cases wrote : r.writeTo peer with
      | error e => exact run_bind_error (by rw [Go.Client.write, wrote]; rfl)
      | ok w =>
          have written : Go.Client.write (some r) peer (ledger ++ [0]) = .ok w (ledger ++ [0]) := by
            rw [Go.Client.write, wrote]
            rfl
          rw [run_bind_ok written]
          dsimp only
          cases flushed : w.flush peer.sink with
          | error e => exact run_bind_error (by rw [Go.Client.flush, flushed]; rfl)
          | ok w' =>
              have clean : Go.Client.flush peer w (ledger ++ [0]) = .ok () (ledger ++ [0]) := by
                rw [Go.Client.flush, flushed]
                rfl
              rw [run_bind_ok clean]
              dsimp only
              cases answered : readResponse peer.stream with
              | error e => exact run_bind_error (by rw [Go.Client.read, answered]; rfl)
              | ok result =>
                  obtain ⟨resp, rest⟩ := result
                  have got : Go.Client.read peer (ledger ++ [0]) = .ok resp (ledger ++ [0]) := by
                    rw [Go.Client.read, answered]
                    rfl
                  rw [run_bind_ok got, run_bind_ok (close_last ledger)]
                  rfl

/-- The connection takes the whole request, and what comes back begins with a frame. -/
def Completes (req : Option Request) (peer : Peer) : Prop :=
  ∃ r bytes h body, req = some r ∧ r.write = .ok bytes ∧ peer.sink.Takes bytes.length ∧
    Begins peer.stream.flatten h body

theorem writeTo_flush_iff {r : Request} :
    (∃ w w', r.writeTo peer = .ok w ∧ w.flush peer.sink = .ok w') ↔
      ∃ bytes, r.write = .ok bytes ∧ peer.sink.Takes bytes.length := by
  unfold Request.writeTo Request.write
  rw [write_eq_image]
  dsimp only
  cases body : r.body with
  | none => simp
  | some bytes =>
      have all : (∃ w₁ w₂, (⟨[], image r.header⟩ : BufWriter UInt8).readFrom defaultBufSize peer.sink bytes =
          .ok w₁ ∧ w₁.flush peer.sink = .ok w₂) ↔ peer.sink.Takes (image r.header ++ bytes).length :=
        BufWriter.readFrom_flush_iff fun k e _ => Nat.zero_le k
      constructor
      · rintro ⟨w, w', wrote, flushed⟩
        refine ⟨_, rfl, all.1 ⟨w, w', ?_, flushed⟩⟩
        dsimp only at wrote
        cases read : (⟨[], image r.header⟩ : BufWriter UInt8).readFrom defaultBufSize peer.sink bytes with
        | error e => rw [read] at wrote; cases wrote
        | ok w₁ => rw [read] at wrote; exact congrArg _ (Except.ok.inj wrote)
      · rintro ⟨_, written, takes⟩
        obtain rfl := Except.ok.inj written
        obtain ⟨w, w', read, flushed⟩ := all.2 takes
        exact ⟨w, w', by dsimp only; rw [read]; rfl, flushed⟩

theorem exchange_ok_iff : (∃ resp, exchange req peer = .ok resp) ↔ Completes req peer := by
  constructor
  · rintro ⟨resp, done⟩
    unfold exchange at done
    split at done
    · cases done
    · next r =>
        split at done
        · cases done
        · next w wrote =>
            split at done
            · cases done
            · next w' flushed =>
                split at done
                · cases done
                · next resp' rest answered =>
                    obtain ⟨bytes, written, takes⟩ := writeTo_flush_iff.1 ⟨w, w', wrote, flushed⟩
                    exact ⟨r, bytes, _, _, rfl, written, takes, (readResponse_ok_iff _ _ _).1 ⟨rest, answered⟩⟩
  · rintro ⟨r, bytes, h, body, rfl, written, takes, begins⟩
    obtain ⟨w, w', wrote, flushed⟩ := writeTo_flush_iff.2 ⟨bytes, written, takes⟩
    obtain ⟨rest, answered⟩ := (readResponse_ok_iff _ _ _).2 begins
    exact ⟨⟨h, body⟩, by simp only [exchange, wrote, flushed, answered]⟩

def after {ε α : Type} : EStateM.Result ε Ledger α → Ledger
  | .ok _ ledger => ledger
  | .error _ ledger => ledger

theorem not_closed (ledger : Ledger) :
    ¬ ∃ opened, ledger ++ [0] = ledger ++ opened ∧ ∀ closes ∈ opened, closes = 1 := by
  rintro ⟨opened, same, closed⟩
  obtain rfl := List.append_cancel_left same
  cases closed 0 (List.mem_singleton_self 0)

/-- However `Do` ends, it has closed what it opened exactly once if and only if there was no connection
or the whole exchange over it succeeded. -/
theorem do_closes_iff (net : Network A) (c : Go.Client A) (picked : Picked A) (req : Option Request)
    (ledger : Ledger) :
    (∃ opened, after (c.Do net picked req ledger) = ledger ++ opened ∧ ∀ closes ∈ opened, closes = 1) ↔
    ∀ addr connected, picked = .addr addr → net.dial addr c.connectTimeout = .ok connected →
      Completes req (connected c.readTimeout c.writeTimeout) := by
  have nothing_opened : ∃ opened, ledger = ledger ++ opened ∧ ∀ closes ∈ opened, closes = 1 :=
    ⟨[], (List.append_nil _).symm, by simp⟩
  cases picked with
  | err text => exact iff_of_true nothing_opened fun addr connected chosen => by cases chosen
  | indexOutOfRange => exact iff_of_true nothing_opened fun addr connected chosen => by cases chosen
  | addr a =>
      have chosen : Go.Client.pickServer (.addr a) ledger = .ok a ledger := rfl
      cases dialled : net.dial a c.connectTimeout with
      | error e =>
          have failed : Go.Client.dialTimeout net a c.connectTimeout ledger = .error (.net e) ledger := by
            rw [Go.Client.dialTimeout, dialled]
            rfl
          rw [Go.Client.Do, run_bind_ok chosen, run_bind_error failed]
          refine iff_of_true nothing_opened fun addr connected same opened => ?_
          cases same
          cases dialled.symm.trans opened
      | ok connected =>
          have completes : (∀ addr connected', Picked.addr a = .addr addr →
              net.dial addr c.connectTimeout = .ok connected' →
              Completes req (connected' c.readTimeout c.writeTimeout)) ↔
              Completes req (connected c.readTimeout c.writeTimeout) := by
            constructor
            · exact fun all => all a connected rfl dialled
            · intro whole addr connected' same opened
              cases same
              cases dialled.symm.trans opened
              exact whole
          rw [completes, ← exchange_ok_iff, do_dialled dialled]
          cases exchange req (connected c.readTimeout c.writeTimeout) with
          | ok resp => exact iff_of_true ⟨[1], rfl, by simp⟩ ⟨resp, rfl⟩
          | error e => exact iff_of_false (not_closed ledger) (by rintro ⟨resp, impossible⟩; cases impossible)

/-- The backend takes the request and does not answer in time. -/
def silent : Network String where
  dial _ _ := .ok fun _ _ => ⟨⟨none⟩, [], .timeout⟩

theorem timeout_leaks :
    ∃ req, newRequest (.bytes [123, 125]) 7 = some req ∧
      (newClient (A := String) .ok ["10.0.0.1:9000"]).Do silent (.addr "10.0.0.1:9000") (some req) [] =
        .error (.net .timeout) [0] := by
  refine ⟨_, rfl, ?_⟩
  rw [do_dialled rfl]
  rfl

end Xrtc.Proof.Client
