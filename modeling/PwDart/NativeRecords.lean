import Mathlib

namespace PwDart

/-- `std::map<std::string, std::string>`: one value a key, visited in key order. -/
abbrev StringMap : Type := Std.ExtTreeMap String String

/-- `std::unordered_map<uint32_t, T>`. The source relies on no iteration order; here it is that
of the keys. -/
abbrev IdMap (ρ : Type) : Type := Std.ExtTreeMap UInt32 ρ

structure NodeInfo where
  id : UInt32 := 0
  name : String := ""
  mediaClass : String := ""
  state : String := ""
  properties : StringMap := ∅
deriving DecidableEq

structure PortInfo where
  id : UInt32 := 0
  nodeId : UInt32 := 0
  name : String := ""
  direction : String := ""
  mediaType : String := ""
  isPhysical : Bool := false
  isTerminal : Bool := false
  aliasName : String := ""
  properties : StringMap := ∅
deriving DecidableEq

structure LinkInfo where
  id : UInt32 := 0
  outputNodeId : UInt32 := 0
  outputPortId : UInt32 := 0
  inputNodeId : UInt32 := 0
  inputPortId : UInt32 := 0
  state : String := ""
  error : String := ""
  properties : StringMap := ∅
deriving DecidableEq

structure DeviceInfo where
  id : UInt32 := 0
  name : String := ""
  description : String := ""
  mediaClass : String := ""
  api : String := ""
  properties : StringMap := ∅
deriving DecidableEq

/-- The variant `GraphEvent`; the `type` text of each alternative is written by the encoder. -/
inductive GraphEvent
  | nodeAdded (node : NodeInfo)
  | nodeRemoved (nodeId : UInt32)
  | nodeInfoChanged (node : NodeInfo)
  | portAdded (port : PortInfo)
  | portRemoved (portId : UInt32)
  | linkAdded (link : LinkInfo)
  | linkRemoved (linkId : UInt32)
  | linkStateChanged (link : LinkInfo)
  | paramChanged (nodeId : UInt32) (key value : String)
deriving DecidableEq

structure GraphSnapshot where
  nodes : List NodeInfo := []
  ports : List PortInfo := []
  links : List LinkInfo := []
  devices : List DeviceInfo := []
deriving DecidableEq

end PwDart
