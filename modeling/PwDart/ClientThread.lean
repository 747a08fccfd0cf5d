import PwDart.CommandLoop
import PwDart.EventSerializer
import PwDart.ParamHandler
import PwDart.RegistryCalls

namespace PwDart

open Json

/-- The components of a connected client that the PipeWire thread calls. -/
structure ClientThread where
  monitor : RegistryMonitor := {}
  params : ParamHandler := {}

/-- What PipeWire calls: registry callbacks, `on_core_error`, and `on_loop_event`, which processes one
command after another. -/
inductive ThreadCall
  | callback (c : Callback)
  | coreError (id : UInt32) (res : Int) (message : Option String)
  | command (cmd : Command)
deriving DecidableEq

def coreErrorJson (id : UInt32) (res : Int) (message : Option String) : String :=
  "\x7b\"type\":\"error\",\"id\":" ++ toString id.toNat ++ ",\"code\":" ++ toString res ++ ",\"message\":\"" ++
    message.getD "" ++ "\"\x7d"

namespace ClientThread

/-- With the events it posts. The link manager keeps no state and posts nothing. -/
def processCommand (readJson : String → Option ParamUpdate) (s : ClientThread) :
    Command → ClientThread × List GraphEvent
  | .createLink _ _ _ => (s, [])
  | .destroyLink _ _ => (s, [])
  | .setParam nodeId paramJson _ =>
    ({ s with params := (s.params.setParam readJson nodeId paramJson).1 },
      (s.params.setParam readJson nodeId paramJson).2.2)
  | .enumParams nodeId _ => (s, s.params.enumParams true nodeId)
  | .getSnapshot _ => (s, [])
  | .disconnect => (s, [])

/-- With the texts it hands to `post_event`. -/
def handle (writeJson : Value → Option String) (readJson : String → Option ParamUpdate) (s : ClientThread) :
    ThreadCall → ClientThread × List String
  | .callback c =>
    ({ s with monitor := (s.monitor.call c).1 }, (s.monitor.call c).2.map (serializeEvent writeJson))
  | .coreError id res message => (s, [coreErrorJson id res message])
  | .command cmd =>
    ((s.processCommand readJson cmd).1, (s.processCommand readJson cmd).2.map (serializeEvent writeJson))

/-- The calls that have nothing to post in this state. -/
def quiet (readJson : String → Option ParamUpdate) (s : ClientThread) : ThreadCall → Bool
  | .callback (.global _ _ _ _) => true
  | .callback (.globalRemove id) => s.monitor.idTypes[id]? = none || s.monitor.idTypes[id]? = some "device"
  | .callback (.nodeInfo id info) => info = none || s.monitor.nodes[id]? = none
  | .callback (.portInfo id info) => info = none || s.monitor.ports[id]? = none
  | .callback (.linkInfo id info) => info = none || s.monitor.links[id]? = none
  | .callback (.deviceInfo _ _) => true
  | .coreError _ _ _ => false
  | .command (.setParam _ paramJson _) => (readJson paramJson).isNone
  | .command (.enumParams _ _) => false
  | .command _ => true

end ClientThread

end PwDart
