/-! # The sink of events

A process has one sink for events. It can be put in place once; putting another one in place
is an error, and fatal where the caller insists. -/
namespace WagerLedger

inductive Sink
  | absent
  | inPlace
deriving DecidableEq

/-- Whether installing goes on, reports an error, or breaks the process off. -/
inductive Installation
  | done
  | refused
  | fatal
deriving DecidableEq

namespace Sink

def tryInstall : Sink → Installation × Sink
  | .absent => (.done, .inPlace)
  | .inPlace => (.refused, .inPlace)

def install (s : Sink) : Installation × Sink :=
  match s.tryInstall with
  | (.refused, s) => (.fatal, s)
  | r => r

/-- Tries twice, then insists: the outcomes of the second and third attempt. -/
def installThrice (s : Sink) : Installation × Installation :=
  let (_, s) := s.tryInstall
  let (second, s) := s.tryInstall
  (second, s.install.1)

end Sink

end WagerLedger
