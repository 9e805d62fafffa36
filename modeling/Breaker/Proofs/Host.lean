import Breaker.CommandLine
import Breaker.Proofs.Quiet

/-!
# Hosts that serve a breaker

A simulation meets its breaker through a host, which takes a move to its end.
Meanwhile the listener may be called, may move in turn, and may panic.

* `Response.ComesBack`: what a method finally comes back with, whatever the
  listener does before.
* `Host.Serves`: the host answers every move as the breaker does.  The host
  whose listener only returns is one, by `quietHost_serves`.
* `Entry.isDecision` are the entries that tell what became of a call that asked
  for admission.  `ComesBack.decisions_eq`: the reply and the journal of the
  response that comes back agree about it.
-/

namespace Breaker

namespace Engine

variable {e e' : Engine} {now : Instant} {move : Move} {sequel : Sequel} {journal : List Entry}
variable {r last : Response}

/-! ## How a method comes back -/

/-- The response with which a method comes back whose first response is given:
the first one itself when the listener is not called, and otherwise the one
after the listener has returned or panicked.  What the listener does before is
any run that leaves its frame as it was. -/
inductive Response.ComesBack : Response → Response → Prop where
  | atOnce {r : Response} (hreply : toldBy r.reply = []) : ComesBack r r
  | afterListener {r next last : Response} {t : Transition} {schedule : List (Instant × Move)}
      {run : Run} {now : Instant} {move : Move} (hreply : r.reply = .listening t)
      (hrun : r.engine.run schedule = some run) (hframes : run.engine.frames = r.engine.frames)
      (hmove : move = .heard ∨ ∃ text, move = .panic text)
      (hnext : run.engine.step now move = some next) (hlast : ComesBack next last) :
      ComesBack r last

/-- The response of a method that calls the listener, and what it leaves in the
mailbox. -/
def telling (e : Engine) (sequel : Sequel) (t : Transition) (mailbox : Mailbox)
    (journal : List Entry) : Response :=
  { engine := { e with mailbox, frames := .listening t sequel :: e.frames }
    reply := .listening t
    journal }

theorem run_nil (e : Engine) : e.run [] = some { engine := e } := rfl

/-- A listener that only returns is told of all that waits, and the method goes
on. -/
theorem comesBack_telling (hproper : isProper sequel = true) (now : Instant) (e : Engine)
    (t : Transition) (rest : List Transition) (journal : List Entry) :
    (e.telling sequel t { pending := rest, held := true } journal).ComesBack
      ({ e with mailbox := {} }.conclude sequel []) := by
  induction rest generalizing t journal with
  | nil =>
    have hnext : (e.telling sequel t { held := true } journal).engine.step now .heard =
        some ({ e with mailbox := {} }.conclude sequel []) := by
      simp only [telling, step, Courier.proceed_nil, follow_gone]
    exact .afterListener rfl (run_nil _) rfl (.inl rfl) hnext
      (.atOnce (conclude_quiet hproper []).1)
  | cons t' rest ih =>
    have hnext :
        (e.telling sequel t { pending := t' :: rest, held := true } journal).engine.step now .heard =
          some (e.telling sequel t' { pending := rest, held := true } [.told t']) := by
      simp only [telling, step, Courier.proceed_cons, follow]
      rfl
    exact .afterListener rfl (run_nil _) rfl (.inl rfl) hnext (ih t' [.told t'])

/-- The response comes back, and a listener that only returns makes the same of
it. -/
def Response.SettlesQuietly (r : Response) (now : Instant) : Prop :=
  ∃ last, r.ComesBack last ∧
    (r.settleQuiet now (r.engine.mailbox.pending.length + 1)).engine = last.engine ∧
    (r.settleQuiet now (r.engine.mailbox.pending.length + 1)).reply = last.reply

/-- A method that comes back at once has nothing to settle. -/
theorem settlesQuietly_atOnce (hreply : toldBy r.reply = []) : r.SettlesQuietly now := by
  refine ⟨r, .atOnce hreply, ?_⟩
  unfold Response.settleQuiet
  split
  next t heq => rw [heq] at hreply; cases hreply
  · exact ⟨rfl, rfl⟩

theorem conclude_reply (e : Engine) (sequel : Sequel) (journal journal' : List Entry) :
    (e.conclude sequel journal).engine = (e.conclude sequel journal').engine ∧
      (e.conclude sequel journal).reply = (e.conclude sequel journal').reply := by
  cases sequel <;> exact ⟨rfl, rfl⟩

theorem settlesQuietly_deliver (hproper : isProper sequel = true) (e : Engine)
    (journal : List Entry) : (e.deliver sequel journal).SettlesQuietly now := by
  rcases deliver_cases e sequel journal with ⟨t, rest, -, heq⟩ | ⟨-, heq⟩
  · rw [heq]
    refine ⟨_, comesBack_telling hproper now e t rest _, ?_⟩
    simp only
    rw [settleQuiet_listening]
    exact conclude_reply _ sequel _ _
  · rw [heq]
    exact settlesQuietly_atOnce (conclude_quiet hproper journal).1

/-- Every method comes back from a listener that only returns. -/
theorem Took.settlesQuietly (h : e.Took now move r) (hheard : move ≠ .heard)
    (hpanic : ∀ text, move ≠ .panic text) : r.SettlesQuietly now := by
  cases h with
  | queried heval view journal => exact settlesQuietly_deliver rfl _ journal
  | refused heval hallow journal => exact settlesQuietly_deliver rfl _ journal
  | admitted heval hallow journal => exact settlesQuietly_deliver rfl _ journal
  | reset hreset journal => exact settlesQuietly_deliver rfl _ journal
  | ended hends heval hsettles journal =>
    exact settlesQuietly_deliver hends.suits.proper _ journal
  | cut hmove heval => exact settlesQuietly_atOnce rfl
  | resetCut hreset => exact settlesQuietly_atOnce rfl
  | endedCut hends heval journal => exact settlesQuietly_atOnce rfl
  | settledCut hends heval hcurrent hsettle journal => exact settlesQuietly_atOnce rfl
  | resumed hmem => exact settlesQuietly_atOnce rfl
  | suspended hframes => exact settlesQuietly_atOnce rfl
  | heard hframes => exact absurd rfl hheard
  | silenced text hframes => exact absurd rfl (hpanic text)

end Engine

/-! ## What becomes of a call that asks for admission -/

/-- Does an entry tell that the operation of a call was invoked, or that the
call was refused? -/
def Entry.isDecision : Entry → Bool
  | .began _ | .refused _ => true
  | _ => false

/-- The same, read off the reply to the caller. -/
def Reply.decisions : Reply → List Entry
  | .operating t => [.began t]
  | .refused r => [.refused r]
  | _ => []

/-- Is it the sequel of a call that asks for admission? -/
def Sequel.decides : Sequel → Bool
  | .operate _ | .refuse _ => true
  | _ => false

namespace Engine

/-- A response to a call that asks for admission: what the journal tells is what
the caller is told, which may be nothing as yet. -/
structure Response.Decides (r : Response) : Prop where
  decisions_eq : r.journal.filter Entry.isDecision = r.reply.decisions
  waits : ∀ t, r.reply = .listening t →
    ∃ sequel frames, r.engine.frames = .listening t sequel :: frames ∧ sequel.decides = true

variable {now : Instant} {move : Move} {sequel : Sequel} {journal : List Entry} {r last : Response}

theorem decides_conclude (hsequel : sequel.decides = true)
    (hjournal : journal.filter Entry.isDecision = []) (e : Engine) :
    (e.conclude sequel journal).Decides := by
  cases sequel with
  | operate t =>
    exact ⟨by rw [conclude, List.filter_append, hjournal]; rfl, fun _ => Reply.noConfusion⟩
  | refuse r =>
    exact ⟨by rw [conclude, List.filter_append, hjournal]; rfl, fun _ => Reply.noConfusion⟩
  | answer reply => cases hsequel
  | unwind text => cases hsequel

theorem decides_telling (hsequel : sequel.decides = true)
    (hjournal : journal.filter Entry.isDecision = []) (e : Engine) (t : Transition)
    (mailbox : Mailbox) : (e.telling sequel t mailbox (journal ++ [.told t])).Decides where
  decisions_eq := by
    rw [telling, List.filter_append, hjournal]
    rfl
  waits := by
    rintro _ ⟨rfl⟩
    exact ⟨sequel, e.frames, rfl, hsequel⟩

theorem decides_deliver (hsequel : sequel.decides = true)
    (hjournal : journal.filter Entry.isDecision = []) (e : Engine) :
    (e.deliver sequel journal).Decides := by
  rcases deliver_cases e sequel journal with ⟨t, rest, -, heq⟩ | ⟨-, heq⟩
  · rw [heq]
    exact decides_telling hsequel hjournal e t _
  · rw [heq]
    exact decides_conclude hsequel hjournal e

theorem noted_filter_isDecision (change : Option Transition) :
    (noted change).filter Entry.isDecision = [] := by
  cases change <;> rfl

theorem decides_call (e : Engine) (now : Instant) : (e.call now).Decides := by
  cases heval : e.circuit.evaluate e.policy now with
  | overflow c =>
    rw [call]
    simp only [heval]
    exact ⟨rfl, fun _ => Reply.noConfusion⟩
  | done c change =>
    cases hallow : c.allow e.policy with
    | error refusal =>
      rw [call_of_error heval hallow]
      exact decides_deliver rfl (noted_filter_isDecision change) _
    | ok c' =>
      rw [call_of_ok heval hallow]
      refine decides_deliver rfl ?_ _
      rw [List.filter_append, noted_filter_isDecision]
      rfl

/-- The listener returns to the method, or its panic ends it. -/
theorem Response.Decides.next {e : Engine} {t : Transition} {frames : List Frame}
    (hsequel : sequel.decides = true) (hframes : e.frames = .listening t sequel :: frames)
    (hmove : move = .heard ∨ ∃ text, move = .panic text) (hstep : e.step now move = some r) :
    r.Decides := by
  rcases hmove with rfl | ⟨text, rfl⟩
  · simp only [step, hframes] at hstep
    cases hstep
    rcases proceed_cases { e with frames } sequel [] with ⟨t', rest, -, heq⟩ | ⟨-, heq⟩
    · rw [heq]
      exact decides_telling hsequel List.filter_nil { e with frames } t' _
    · rw [heq]
      exact decides_conclude hsequel rfl _
  · simp only [step, hframes] at hstep
    split at hstep
    · cases hstep
    · cases hstep
      exact ⟨rfl, fun _ => Reply.noConfusion⟩

theorem Response.ComesBack.decides (h : r.ComesBack last) (hr : r.Decides) : last.Decides := by
  induction h with
  | atOnce hreply => exact hr
  | afterListener hreply hrun hframes hmove hnext hlast ih =>
    obtain ⟨sequel, frames, htop, hsequel⟩ := hr.waits _ hreply
    exact ih (Response.Decides.next hsequel (hframes.trans htop) hmove hnext)

end Engine

/-! ## Hosts -/

namespace Simulation.Host

open Engine

variable {σ : Type}

/-- The host takes a move to its end as its breaker does: `answer` is the
response with which the method comes back. -/
structure Answers (host : Host σ) (engine : σ → Engine) (world : σ) (move : Move)
    (answer : Response) : Prop where
  comesBack : ∃ first, (engine world).step (host.now world) move = some first ∧
    first.ComesBack answer
  engine_eq : engine (host.send move world).1 = answer.engine
  reply_eq : (host.send move world).2 = answer.reply

/-- The host answers every move that a client can make.  The listener's return
and its panic are the host's own. -/
def Serves (host : Host σ) (engine : σ → Engine) : Prop :=
  ∀ world move, ((engine world).step (host.now world) move).isSome → move ≠ .heard →
    (∀ text, move ≠ .panic text) → ∃ answer, host.Answers engine world move answer

/-- What the breaker decides about a call is what the worker hears. -/
theorem Answers.decisions_eq {host : Host σ} {engine : σ → Engine} {world : σ} {answer : Response}
    (h : host.Answers engine world .call answer) :
    answer.journal.filter Entry.isDecision = (host.send .call world).2.decisions := by
  obtain ⟨first, hstep, hback⟩ := h.comesBack
  cases hstep
  rw [h.reply_eq]
  exact (hback.decides (decides_call _ _)).decisions_eq

/-- The host whose listener only returns. -/
theorem quietHost_serves : CommandLine.quietHost.Serves Prod.snd := by
  rintro ⟨now, e⟩ move hsome hheard hpanic
  obtain ⟨first, hstep⟩ := Option.isSome_iff_exists.1 hsome
  obtain ⟨last, hback, hengine, hreply⟩ := (step_took hstep).settlesQuietly hheard hpanic
  have hstep' : e.step now move = some first := hstep
  have hnow : CommandLine.quietHost.now (now, e) = now := rfl
  rw [hnow] at hengine hreply
  have hsend : CommandLine.quietHost.send move (now, e) =
      ((now, (first.settleQuiet now (first.engine.mailbox.pending.length + 1)).engine),
        (first.settleQuiet now (first.engine.mailbox.pending.length + 1)).reply) := by
    simp only [CommandLine.quietHost, stepQuiet, hstep', Option.map_some]
  exact ⟨last, ⟨first, hstep, hback⟩, by rw [hsend, hengine], by rw [hsend, hreply]⟩

end Simulation.Host

end Breaker
