import ClawKernel.Lib.Json
import ClawKernel.Provider.Types
import ClawKernel.Server.Connection

/-! JSON-RPC messages of the kernel server and the errors its responses report.
-/
namespace ClawKernel.Server.Protocol
open Lib.Json Provider.Types Server.Connection

inductive RequestId where
  | string (text : String)
  | number (value : Int)
  | null
  deriving DecidableEq, Repr

structure Request where
  jsonrpc : String
  method : String
  params : Option Value
  id : Option RequestId
  deriving Repr

structure RpcError where
  code : Int
  message : String
  data : Option Value
  deriving Repr

structure Response where
  jsonrpc : String
  result : Option Value
  error : Option RpcError
  id : Option RequestId
  deriving Repr

structure Notification where
  jsonrpc : String
  method : String
  params : Option Value
  deriving Repr

namespace Response

def success (result : Value) (id : Option RequestId) : Response := ⟨"2.0",some result,none,id⟩

def failure (code : Int) (message : String) (data : Option Value) (id : Option RequestId) : Response :=
  ⟨"2.0",none,some ⟨code,message,data⟩,id⟩

end Response

def Notification.new (method : String) (params : Option Value) : Notification := ⟨"2.0",method,params⟩

def parseErrorCode : Int := -32700

inductive ServerError where
  | ipc (error : IpcError)
  | serialization (message : String)
  | sessionNotFound (id : String)
  | provider (error : ProviderError)
  | agent (message : String)
  | shutdown
  | maxSessionsReached (max : Nat)
  deriving DecidableEq, Repr

def ipcText : IpcError → String
  | .connectionRefused => "connection refused"
  | .timeout => "operation timed out"
  | .brokenPipe => "broken pipe"
  | .invalidMessage => "invalid message format"
  | .permissionDenied => "permission denied"

namespace ServerError

def errorCode : ServerError → Int
  | .serialization _ => -32700
  | .ipc _ => -32600
  | .sessionNotFound _ => -32000
  | .maxSessionsReached _ => -32001
  | .provider _ => -32002
  | .agent _ => -32003
  | .shutdown => -32600

def display : ServerError → String
  | .ipc error => "IPC error: " ++ ipcText error
  | .serialization message => "serialization error: " ++ message
  | .sessionNotFound id => "session not found: " ++ id
  | .provider error => "provider error: " ++ error.display
  | .agent message => "agent error: " ++ message
  | .shutdown => "server shutting down"
  | .maxSessionsReached max => "max sessions reached: " ++ toString max

end ServerError

/-! The serialised forms. A member that is none is left out, except the id. -/

def member (name : String) (value : Option Value) : List (String × Value) :=
  match value with
  | some value => [(name,value)]
  | none => []

def RequestId.json : RequestId → Value
  | .string text => .string text
  | .number value => .integer value
  | .null => .null

def RpcError.json (error : RpcError) : Value :=
  .object ([("code",.integer error.code),("message",.string error.message)] ++ member "data" error.data)

def Response.json (response : Response) : Value :=
  .object ([("jsonrpc",.string response.jsonrpc)] ++ member "result" response.result ++
    member "error" (response.error.map RpcError.json) ++
    [("id",(response.id.map RequestId.json).getD .null)])

def Notification.json (notification : Notification) : Value :=
  .object ([("jsonrpc",.string notification.jsonrpc),("method",.string notification.method)] ++
    member "params" notification.params)

end ClawKernel.Server.Protocol
