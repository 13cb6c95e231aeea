import FleetLabels.Marker
import FleetLabels.Node.Basic

/-!
# Labeling nodes

What a policy does to the labels of one node. A node that joins the selection gets the declared
labels and the marker; a node that leaves it loses the marker and the declared keys; a node that is
cleaned loses every key of the policy's key space as well. All other labels stay as they are.
-/

namespace FleetLabels

/-- The labels with all wanted values, and whether one of them had to be set. Values are set one
after the other, so that of two for the same key the later one stays. -/
def Labels.merge (labels : Labels) (wanted : List (String × String)) : Labels × Bool :=
  wanted.foldl
    (fun (m, changed) (k, v) => if m.get? k = some v then (m, changed) else (m.insert k v, true))
    (labels, false)

/-- What a selected node is to carry: the declared labels in the order of their keys, then the
marker. -/
def wantedLabels (declared : Labels) (marker : String) : List (String × String) :=
  declared.entries ++ [(marker, Marker.value)]

namespace Node

/-- Whether a node carries the given marker. -/
def isManagedBy (n : Node) (marker : String) : Bool :=
  n.labels.get? marker == some Marker.value

/-- The node after joining the selection, none if that sets no label. -/
def joined? (n : Node) (declared : Labels) (marker : String) : Option Node :=
  let (labels, changed) := n.labels.merge (wantedLabels declared marker)
  if changed then some (n.withLabels labels) else none

/-- The node after leaving the selection: without the marker and the declared keys. -/
def left (n : Node) (declared : Labels) (marker : String) : Node :=
  n.withLabels ((n.labels.erase marker).eraseAll declared.keys)

/-- The node after a cleanup: without the keys of the policy's key space and the declared keys. -/
def stripped (n : Node) (policy : String) (declared : Labels) : Node :=
  n.withLabels ((n.labels.filterKeys (!Marker.owns policy ·)).eraseAll declared.keys)

end Node

end FleetLabels
