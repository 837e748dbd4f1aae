import MotionGraph.Node.Config

/-!
# What can be wrong with a request to a graph

A refused request leaves the graph as it was; the cause says why.
-/

namespace MotionGraph

/-- Why a request to a graph is refused. -/
inductive GraphError where
  /-- No node has this name. -/
  | unknownNode (tag : Tag)
  /-- A node has this name already. -/
  | duplicateTag (tag : Tag)
  /-- The edge would make a node depend on itself. -/
  | cycle (parent child : Tag)
  /-- The description of a node is wrong. -/
  | config (cause : ConfigError)
  /-- The request is for nodes that hand values to a view. -/
  | notProps (tag : Tag)
  /-- The node hands its values to another view. -/
  | alreadyAttached (tag : Tag) (view : ViewId)
  /-- The node has no number to set. -/
  | holdsNoValue (kind : String) (tag : Tag)
  /-- The node has no number to animate. -/
  | notAnimatable (kind : String) (tag : Tag)
  /-- The node has no number for an event to write. -/
  | notEventTarget (tag : Tag) (kind : String)
  /-- Something outside the graph refers to the node. -/
  | inUse (tag : Tag) (holder : String)
  /-- There is no such edge. -/
  | edgeNotFound (parent child : Tag)
  /-- The node hands values to a view and is no input. -/
  | sinkAsInput (tag : Tag)
  /-- The node does not hand its values to this view. -/
  | viewNotConnected (tag : Tag) (view : ViewId)

/-- What the user is told. -/
def GraphError.message : GraphError → String
  | .unknownNode tag => "Unknown node: " ++ tag.label
  | .duplicateTag tag => "Duplicate tag: " ++ tag.label
  | .cycle parent child =>
    "Connecting " ++ parent.label ++ " to " ++ child.label ++ " would create a cycle"
  | .config cause => "Invalid config: " ++ cause.message
  | .notProps tag => "Invalid config: node " ++ tag.label ++ " is not a props node"
  | .alreadyAttached tag view =>
    "Invalid config: props node " ++ tag.label ++ " is already attached to " ++ view.label
  | .holdsNoValue kind tag =>
    "Invalid config: " ++ kind ++ " node " ++ tag.label ++ " does not hold a value"
  | .notAnimatable kind tag =>
    "Invalid config: " ++ kind ++ " node " ++ tag.label ++ " cannot be animated"
  | .notEventTarget tag kind =>
    "Invalid config: event target " ++ tag.label ++ " is a " ++ kind ++ " node"
  | .inUse tag holder => "Node " ++ tag.label ++ " is still referenced by " ++ holder
  | .edgeNotFound parent child => "No edge from " ++ parent.label ++ " to " ++ child.label
  | .sinkAsInput tag => "Props node " ++ tag.label ++ " cannot be an input"
  | .viewNotConnected tag view =>
    "Props node " ++ tag.label ++ " is not connected to " ++ view.label

end MotionGraph
