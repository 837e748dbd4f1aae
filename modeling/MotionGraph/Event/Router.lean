import MotionGraph.Event.Path
import MotionGraph.Graph.Basic

/-!
# Events

Views send events. A binding hands one number of an event to a node; bindings are kept by view and
name of the event, each once, in the order of their making. If names are normalized, `onScroll`
and `topScroll` name the same event.
-/

namespace MotionGraph

/-- A number of an event and the node that receives it. -/
structure EventBinding where
  path : EventPath
  target : Tag
  deriving DecidableEq, Repr

/-- What bindings are kept by. -/
structure EventKey where
  view : ViewId
  event : String
  deriving DecidableEq, Repr

/-- A binding that found no number in an event. -/
structure PayloadError where
  view : ViewId
  /-- The name under which the binding is kept. -/
  event : String
  path : EventPath
  target : Tag
  cause : PathError

/-- What the user is told. -/
def PayloadError.message (e : PayloadError) : String :=
  "Event " ++ e.event ++ " on " ++ e.view.label ++ ": binding to node " ++ e.target.label
    ++ " at " ++ e.path.toText ++ ": " ++ e.cause.message

/-- What an event did. -/
structure Dispatch where
  /-- The values written, in the order of the bindings. -/
  written : Writes := []
  /-- The bindings that found no number. -/
  errors : List PayloadError := []

/-- Whether an event did nothing at all. -/
def Dispatch.isEmpty (d : Dispatch) : Bool := d.written.isEmpty && d.errors.isEmpty

/-- The name that events with either spelling are kept under: `on` before a capital letter becomes
`top`. Only letters of ASCII count as capitals here. -/
def normalizeEvent (event : String) : String :=
  match event.toList with
  | 'o' :: 'n' :: c :: cs => if c.isUpper then "top" ++ String.ofList (c :: cs) else event
  | _ => event

/-- The bindings by view and event. -/
structure Router where
  bindings : OrderedMap EventKey (List EventBinding) := ∅
  /-- Whether names are normalized. -/
  normalizes : Bool := false

namespace Router

/-- What the bindings of an event are kept by. -/
def key (r : Router) (view : ViewId) (event : String) : EventKey :=
  ⟨view, if r.normalizes then normalizeEvent event else event⟩

/-- The bindings of an event. -/
def lookup (r : Router) (view : ViewId) (event : String) : List EventBinding :=
  (r.bindings.get? (r.key view event)).getD []

/-- Adds bindings that are not there yet, and counts them. -/
def addTo (present : List EventBinding) : List EventBinding → List EventBinding × Nat
  | [] => (present, 0)
  | b :: bs =>
    if present.contains b then addTo present bs
    else
      let (present, added) := addTo (present ++ [b]) bs
      (present, added + 1)

/-- Binds numbers of an event to nodes. Tells how many bindings are new. -/
def add (r : Router) (view : ViewId) (event : String) (bs : List EventBinding) : Router × Nat :=
  let (present, added) := addTo (r.lookup view event) bs
  ({ r with bindings := r.bindings.insert (r.key view event) present }, added)

/-- Removes the bindings of an event to a node. Tells how many there were. -/
def remove (r : Router) (view : ViewId) (event : String) (t : Tag) : Router × Nat :=
  let key := r.key view event
  match r.bindings.get? key with
  | none => (r, 0)
  | some present =>
    let kept := present.filter fun b => b.target ≠ t
    let bindings :=
      if kept.isEmpty then r.bindings.erase key else r.bindings.insert key kept
    ({ r with bindings }, present.length - kept.length)

/-- Number of bindings. -/
def size (r : Router) : Nat := r.bindings.values.foldr (fun bs n => bs.length + n) 0

/-- Whether there is no binding. -/
def isEmpty (r : Router) : Bool := r.size = 0

/-- Whether some binding hands numbers to a node. -/
def holds (r : Router) (t : Tag) : Bool :=
  r.bindings.values.any fun bs => bs.any fun b => b.target = t

/-- The bindings as something that refers to nodes. -/
def toHolder (r : Router) : Holder := ⟨"an event binding", r.holds⟩

/-- Hands the numbers of an event to nodes, one binding after the other. A binding without a number
is passed over; so is one whose node is gone or holds no number. -/
def deliver (key : EventKey) (payload : Json) : Graph → List EventBinding → Graph × Dispatch
  | g, [] => (g, {})
  | g, b :: bs =>
    match b.path.extract payload with
    | .error cause =>
      let (g, d) := deliver key payload g bs
      (g, { d with errors := ⟨key.view, key.event, b.path, b.target, cause⟩ :: d.errors })
    | .ok x =>
      match g.setBase b.target x with
      | .ok (g, _) =>
        let (g, d) := deliver key payload g bs
        (g, { d with written := (b.target, x) :: d.written })
      | .error _ => deliver key payload g bs

/-- Hands the numbers of an event to the nodes bound to it. -/
def handle (r : Router) (view : ViewId) (event : String) (payload : Json) (g : Graph) :
    Graph × Dispatch :=
  deliver (r.key view event) payload g (r.lookup view event)

end Router

end MotionGraph
