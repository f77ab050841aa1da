import DcCluster.TinyXml2.CutNode

/-!
Executable model of `LocalConfig::LoadXml`, and what it makes of a file that was cut short.
-/

namespace DcCluster.Node.LocalConfig

open DcCluster.Lib DcCluster.Mq DcCluster.TinyXml2

structure NodeInfo where
  nodeIp : Text
  nodePort : Int
  clusterIp : Text
  clusterPort : Int
  mqIP : Text
  mqPort : Int
  mqQueue : Text
  deriving DecidableEq, Repr

def NodeInfo.initial : NodeInfo where
  nodeIp := "127.0.0.1".toList
  nodePort := 5002
  clusterIp := "127.0.0.1".toList
  clusterPort := 6001
  mqIP := "127.0.0.1".toList
  mqPort := 61616
  mqQueue := "test".toList

inductive Outcome
  | swartzOk
  | swartzErr
  | nullPointer
  deriving DecidableEq, Repr

/-- Assigns what `Attribute` has returned to a string. Without the attribute that is a null
pointer; what had been stored before then stands. -/
def assign (info : NodeInfo) (value : Option Text) (store : Text → NodeInfo) :
    Except NodeInfo NodeInfo :=
  match value with
  | none => .error info
  | some text => .ok (store text)

def readHost (host : XMLElement) (info : NodeInfo) : Except NodeInfo NodeInfo := do
  let info ← assign info (host.attributeValue "NodeIp".toList) fun ip => { info with nodeIp := ip }
  let info := { info with nodePort := host.intAttribute "NodePort".toList }
  let info ← assign info (host.attributeValue "ClusterIp".toList) fun ip =>
    { info with clusterIp := ip }
  pure { info with clusterPort := host.intAttribute "ClusterPort".toList }

def readMq (mq : XMLElement) (info : NodeInfo) : Except NodeInfo NodeInfo := do
  let info ← assign info (mq.attributeValue "ip".toList) fun ip => { info with mqIP := ip }
  let info := { info with mqPort := mq.intAttribute "port".toList }
  assign info (mq.attributeValue "queue".toList) fun queue => { info with mqQueue := queue }

def readRoot (root : XMLElement) (info : NodeInfo) : Outcome × NodeInfo :=
  match firstChildElement (some "host".toList) root.children with
  | none => (.swartzErr, info)
  | some host =>
      match readHost host info with
      | .error stored => (.nullPointer, stored)
      | .ok stored =>
          match firstChildElement (some "mq".toList) root.children with
          | none => (.swartzErr, stored)
          | some mq =>
              match readMq mq stored with
              | .error last => (.nullPointer, last)
              | .ok last => (.swartzOk, last)

/-- `LoadXml` on what the file holds, `none` when it cannot be opened. -/
def loadXml (info : NodeInfo) (xml : Option Text) : Outcome × NodeInfo :=
  match loadFile xml with
  | .error _ => (.swartzErr, info)
  | .ok children =>
      match firstChildElement none children with
      | none => (.nullPointer, info)
      | some root => readRoot root info

theorem firstChildElement_prefix {name : Option Text} {children children' : List XMLNode}
    {element : XMLElement} (first : firstChildElement name children = some element)
    (extended : children <+: children') : firstChildElement name children' = some element := by
  obtain ⟨more, rfl⟩ := extended
  unfold firstChildElement at first ⊢
  rw [List.filterMap_append, List.find?_append, first]
  rfl

/-- A configuration that was cut short, where the whole file loads: nothing is stored, or
all that the whole file gives. -/
theorem loadXml_cut (info : NodeInfo) {part more : Text}
    (loads : (loadFile (some (part ++ more))).isOk = true) :
    loadXml info (some part) = loadXml info (some (part ++ more)) ∨
      loadXml info (some part) = (.swartzErr, info) ∨
        loadXml info (some part) = (.nullPointer, info) := by
  cases read : loadFile (some part) with
  | error error =>
      right
      left
      unfold loadXml
      rw [read]
  | ok children =>
      obtain ⟨nodes, whole⟩ : ∃ nodes, loadFile (some (part ++ more)) = .ok nodes := by
        cases whole : loadFile (some (part ++ more)) with
        | error error =>
            rw [whole] at loads
            cases loads
        | ok nodes => exact ⟨nodes, rfl⟩
      have extended : children <+: nodes := parse_append read whole
      cases first : firstChildElement none children with
      | none =>
          right
          right
          unfold loadXml
          rw [read]
          dsimp only
          rw [first]
      | some root =>
          left
          unfold loadXml
          rw [read, whole]
          dsimp only
          rw [first, firstChildElement_prefix first extended]

theorem loadXml_cut_host :
    loadXml NodeInfo.initial (some "<config><ho".toList) =
        loadXml NodeInfo.initial (some ("<config><ho".toList ++ "st/></config>".toList)) ∨
      loadXml NodeInfo.initial (some "<config><ho".toList) = (.swartzErr, NodeInfo.initial) ∨
        loadXml NodeInfo.initial (some "<config><ho".toList) = (.nullPointer, NodeInfo.initial) :=
  loadXml_cut NodeInfo.initial (by decide +kernel)

example : loadXml NodeInfo.initial (some "<!---->".toList) = (.nullPointer, NodeInfo.initial) := by
  decide +kernel

end DcCluster.Node.LocalConfig
