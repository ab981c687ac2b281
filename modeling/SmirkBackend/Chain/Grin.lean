import SmirkBackend.Basic
import SmirkBackend.Lib.Json
import SmirkBackend.Lib.Machine

/-!
# The Grin node client

The node wraps every answer twice: a JSON-RPC envelope, and inside it Grin's own
`{"Ok": _}` or `{"Err": _}`.  What an exchange gives is a parameter: a failure (transport, HTTP
status, size limit or undecodable body) or the decoded envelope.

`node_rpc` turns an inner `Err` into an error.  `node_rpc_optional`, which only `get_kernel` uses,
reads every inner `Err` as an absent value.
-/

namespace SmirkBackend

/-- Grin's own result. -/
inductive GrinOk (α : Type)
  | ok (value : α)
  | err (reason : Lib.Json)

/-- The JSON-RPC envelope; of an error only the code is read. -/
structure RpcEnvelope (α : Type) where
  /-- The inner result. -/
  result : Option (GrinOk α)
  /-- The code of an envelope error. -/
  error : Option Int64

namespace RpcEnvelope

variable {α : Type}

/-- `envelope_into_result`. -/
def intoResult (env : RpcEnvelope α) (what : String) : Except AppError α :=
  match env.error with
  | some code => .error (.nodeError s!"{what} error {code.toInt}")
  | none =>
    match env.result with
    | some (.ok r) => .ok r
    | some (.err _) => .error (.nodeError s!"{what} returned an error")
    | none => .error (.nodeError s!"{what}: empty result")

/-- The tail of `node_rpc_optional`. -/
def intoOptional (env : RpcEnvelope α) : Except AppError (Option α) :=
  match env.error with
  | some code => .error (.nodeError s!"grin node error {code.toInt}")
  | none =>
    match env.result with
    | some (.ok r) => .ok (some r)
    | some (.err _) => .ok none
    | none => .error (.nodeError "grin node: empty result")

end RpcEnvelope

/-- An output of the node's output set. -/
structure GrinOutputInfo where
  /-- The Pedersen commitment. -/
  commit : String
  /-- Height of the block that holds the output. -/
  blockHeight : Option UInt64
  /-- Output index. -/
  mmrIndex : UInt64
  deriving DecidableEq

/-- `confirmations`: an output without a height, or above the tip, counts as unconfirmed. -/
def GrinOutputInfo.confirmations (o : GrinOutputInfo) (tipHeight : UInt64) : UInt64 :=
  match o.blockHeight with
  | some h =>
    if 0 < h && h ≤ tipHeight then Lib.saturatingAddU (Lib.saturatingSubU tipHeight h) 1 else 0
  | none => 0

/-- A located transaction kernel. -/
structure GrinKernelInfo where
  /-- Height of the block that holds the kernel. -/
  height : UInt64
  deriving DecidableEq

/-- The answers a Grin client meets. -/
structure GrinClient where
  /-- Exchange of `get_status`; the height of the chain tip is read. -/
  status : Except AppError (RpcEnvelope UInt64)
  /-- Exchange of `get_outputs`. -/
  outputs : List String → Except AppError (RpcEnvelope (List GrinOutputInfo))
  /-- Exchange of `get_kernel`. -/
  kernel : String → Except AppError (RpcEnvelope (Option GrinKernelInfo))

namespace GrinClient

/-- `node_rpc`. -/
def nodeRpc {α : Type} (exchange : Except AppError (RpcEnvelope α)) : Except AppError α := do
  (← exchange).intoResult "grin node"

/-- `node_rpc_optional`. -/
def nodeRpcOptional {α : Type} (exchange : Except AppError (RpcEnvelope α)) :
    Except AppError (Option α) := do
  (← exchange).intoOptional

/-- `get_height`. -/
def getHeight (c : GrinClient) : Except AppError UInt64 := nodeRpc c.status

/-- `get_outputs`. -/
def getOutputs (c : GrinClient) (commits : List String) :
    Except AppError (List GrinOutputInfo) :=
  if commits.isEmpty then .ok [] else nodeRpc (c.outputs commits)

/-- `get_kernel`: the height a kernel was mined at. -/
def getKernel (c : GrinClient) (excess : String) : Except AppError (Option UInt64) := do
  let kernel ← nodeRpcOptional (c.kernel excess)
  pure (kernel.join.map (·.height))

end GrinClient

end SmirkBackend
