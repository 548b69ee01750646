import ClawKernel.Lib.Schema

/-! The parameters of the methods of `handle_message`, and the arm each method has.
-/
namespace ClawKernel.Server.Params
open Lib.Schema

def text (name : String) : String × Presence × Kind := (name,.required,.text)

def optional (name : String) (kind : Kind) : String × Presence × Kind := (name,.optional,kind)

def destroySessionParams : Fields := [text "session_id"]

def eventsSubscribeParams : Fields := [text "session_id",("filter",.defaulted,.text)]

def eventsUnsubscribeParams : Fields := [text "session_id"]

def scheduleCreateParams : Fields :=
  [text "session_id",text "cron",text "prompt",optional "label" .text]

def scheduleCancelParams : Fields := [text "task_id"]

def scheduleListParams : Fields := [text "session_id"]

def channelCreateParams : Fields :=
  [text "session_id",text "channel_type",optional "port" (.unsigned 16)]

def channelSendParams : Fields := [text "channel_id",text "message"]

def channelCloseParams : Fields := [text "channel_id"]

def channelRegisterParams : Fields := [text "type",text "channel_id",("config",.required,.any)]

def channelUnregisterParams : Fields := [text "channel_id"]

def channelRouteAddParams : Fields :=
  [text "rule_type",optional "channel_id" .text,optional "sender_id" .text,optional "pattern" .text,
    text "agent_id"]

def channelRouteRemoveParams : Fields := [text "agent_id"]

def channelInboundParams : Fields :=
  [text "channel_id",text "sender_id",text "content",optional "thread_id" .text,optional "message_id" .text,
    optional "metadata" .any]

def channelBroadcastParams : Fields := channelInboundParams

def triggerAddCronParams : Fields :=
  [text "trigger_id",text "cron_expr",text "target_agent",optional "message" .text]

def triggerAddWebhookParams : Fields :=
  [text "trigger_id",text "target_agent",optional "hmac_secret" .text]

def triggerAddEventParams : Fields :=
  [text "trigger_id",text "event_pattern",optional "condition" .any,text "target_agent",optional "message" .text]

def triggerRemoveParams : Fields := [text "trigger_id"]

def agentSpawnConfig : Fields :=
  [optional "system_prompt" .text,optional "provider" .text,optional "model" .text,
    optional "max_turns" (.unsigned 32)]

def agentSpawnParams : Fields := [optional "agent_id" .text,("config",.required,.record agentSpawnConfig)]

def agentKillParams : Fields := [text "agent_id"]

def agentSteerParams : Fields := [text "agent_id",text "message"]

def agentAnnounceParams : Fields := [text "agent_id",("capabilities",.required,.list .text)]

def fsPermissions : Fields := [("read_paths",.required,.list .text),("write_paths",.required,.list .text)]

def networkPermissions : Fields :=
  [("allowed_domains",.required,.list .text),("allowed_ports",.required,.list (.unsigned 16)),
    ("allow_localhost",.required,.flag),("allow_private_ips",.required,.flag)]

def permissionSet : Fields :=
  [("filesystem",.required,.record fsPermissions),("network",.required,.record networkPermissions),
    ("subprocess",.required,.variant ["Denied","Allowed"])]

def toolRegisterParams : Fields :=
  [text "name",text "description",("schema",.required,.any),optional "executor" .text,
    optional "permissions" (.record permissionSet)]

def toolUnregisterParams : Fields := [text "name"]

def toolWatchDirParams : Fields := [text "path"]

def toolReloadParams : Fields := [text "path"]

def skillLoadDirParams : Fields := [text "path"]

def skillGetFullParams : Fields := [text "name"]

def auditListParams : Fields :=
  [optional "limit" (.unsigned 64),optional "agent_id" .text,optional "since_ms" (.unsigned 64)]

/-- How `handle_message` reaches the handler of a method: directly, or after
decoding the parameters itself, leaving with the error if that fails. -/
inductive Arm where
  | direct
  | parsed (fields : Fields)

/-- The dispatch of `handle_message`, in its order. -/
def arms : List (String × Arm) :=
  [("createSession",.direct),
   ("sendMessage",.direct),
   ("toolResult",.direct),
   ("destroySession",.direct),
   ("kernel.ping",.direct),
   ("kernel.info",.direct),
   ("provider.register",.direct),
   ("provider.list",.direct),
   ("session.create",.direct),
   ("session.close",.parsed destroySessionParams),
   ("events.subscribe",.parsed eventsSubscribeParams),
   ("events.unsubscribe",.parsed eventsUnsubscribeParams),
   ("schedule.create",.parsed scheduleCreateParams),
   ("schedule.cancel",.parsed scheduleCancelParams),
   ("schedule.list",.parsed scheduleListParams),
   ("channel.create",.parsed channelCreateParams),
   ("channel.send",.parsed channelSendParams),
   ("channel.close",.parsed channelCloseParams),
   ("channel.register",.parsed channelRegisterParams),
   ("channel.unregister",.parsed channelUnregisterParams),
   ("channel.list",.direct),
   ("channel.route_add",.parsed channelRouteAddParams),
   ("channel.route_remove",.parsed channelRouteRemoveParams),
   ("channel.route_list",.direct),
   ("channel.broadcast",.parsed channelBroadcastParams),
   ("channel.inbound",.parsed channelInboundParams),
   ("trigger.add_cron",.parsed triggerAddCronParams),
   ("trigger.add_webhook",.parsed triggerAddWebhookParams),
   ("trigger.add_event",.parsed triggerAddEventParams),
   ("trigger.remove",.parsed triggerRemoveParams),
   ("trigger.list",.direct),
   ("agent.spawn",.parsed agentSpawnParams),
   ("agent.kill",.parsed agentKillParams),
   ("agent.steer",.parsed agentSteerParams),
   ("agent.list",.direct),
   ("agent.announce",.parsed agentAnnounceParams),
   ("agent.discover",.direct),
   ("tool.register",.parsed toolRegisterParams),
   ("tool.unregister",.parsed toolUnregisterParams),
   ("tool.list",.direct),
   ("tool.watch_dir",.parsed toolWatchDirParams),
   ("tool.reload",.parsed toolReloadParams),
   ("skill.load_dir",.parsed skillLoadDirParams),
   ("skill.list",.direct),
   ("skill.get_full",.parsed skillGetFullParams),
   ("audit.list",.parsed auditListParams)]

def armOf (method : String) : Option Arm := arms.lookup method

end ClawKernel.Server.Params
