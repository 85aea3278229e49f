import Rendezvous.Poller
import Rendezvous.Transport
import Rendezvous.Verification

/-!
# Assembling the components

All a process needs to take events in, to find matches and to verify steps, put together from its
settings around one mailbox: an engine, a transport the engine is attached to, a verifier and a
first poller.
-/

namespace Rendezvous

/-- The components of one process, `ResumeRuntime` in the system. Engine, pollers and verifier share
one mailbox, so whoever waits in this process is woken by whoever in it finds the event. -/
structure Assembly where
  engine : Engine
  verifier : Verifier
  transport : Transport
  /-- The subscription of the engine, where the transport has any. -/
  subscription : Option Subscription
  pollers : List Poller
  retention : Retention

namespace Assembly

/-- Puts the components together as the settings ask for it. The first poller is named after the
backend, and only a transport with subscribers has the engine subscribed to it. -/
def ofSettings (s : Settings) (mailbox : MailboxId) : Assembly :=
  let engine : Engine := ⟨some mailbox⟩
  { engine
    verifier := ⟨some mailbox⟩
    transport := s.transport
    subscription := if s.transport.subscribable then some ⟨0⟩ else none
    pollers := [⟨s!"{s.backend.name}-poller", engine, s.pollIntervalMs⟩]
    retention := ⟨s.holdSecs * 1000, s.holdCapacity, fun _ => 0⟩ }

/-- What assembling reports, in this order: the subscription of the engine, if its transport has
any, and the components that were put together. -/
def entries (s : Settings) (a : Assembly) : List LogEntry :=
  (a.subscription.map Transport.attached).getD [] ++
    [⟨.info, "resume_engine::runtime", "Resume runtime assembled",
      [("transport", .plain s.transport.name), ("backend", .shown s.backend.name)]⟩]

end Assembly

end Rendezvous
