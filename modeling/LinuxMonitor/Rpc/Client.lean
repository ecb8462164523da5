import LinuxMonitor.Proto

/-!
# `RpcClient`: the calls of the service

A call ends with a status.  `RpcClient` prints a status that is not OK and returns as if
nothing had happened, so its caller only sees the message that was to be filled in.
-/

set_option autoImplicit false

namespace LinuxMonitor.Rpc

/-- How a call ends: with status OK and a response, with another status and whatever the
response message holds then, or with an exception. -/
inductive CallOutcome (α : Type) where
  | ok (response : α)
  | failed (response : α)
  | threw
deriving DecidableEq, Repr

/-- The call has status OK. -/
def CallOutcome.Succeeded {α : Type} : CallOutcome α → Prop
  | .ok _ => True
  | .failed _ => False
  | .threw => False

/-- `RpcClient::GetMonitorInfo`: the message afterwards, nothing when the exception passes
through. -/
def RpcClient.getMonitorInfo {α : Type} : CallOutcome α → Option α
  | .ok response => some response
  | .failed response => some response
  | .threw => none

end LinuxMonitor.Rpc
