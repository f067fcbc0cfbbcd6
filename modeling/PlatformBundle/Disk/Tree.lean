import PlatformBundle.KeyMap
import PlatformBundle.Path
/-!
A file tree as a map from places to what stands there. The root is always a directory. Everything
that is said about a tree is said through `get?`: what `put`, `erase` and `eraseBelow` do to it is
stated by the lemmas beside them, and two trees count as the same when `get?` agrees.
-/

namespace PlatformBundle

inductive Node where
  | directory
  | file (content : ByteArray) (executable : Bool)
  | link (target : String)

structure FileTree where
  nodes : List (RealPath × Node)

namespace FileTree

def find (place : RealPath) : List (RealPath × Node) → Option Node
  | [] => none
  | (p, node) :: rest => if p = place then some node else find place rest

def get? (tree : FileTree) (place : RealPath) : Option Node :=
  if place = [] then some .directory else find place tree.nodes

def without (drop : RealPath → Bool) (nodes : List (RealPath × Node)) : List (RealPath × Node) :=
  nodes.filter (fun entry => !drop entry.1)

theorem find_without (drop : RealPath → Bool) (nodes : List (RealPath × Node)) (place : RealPath) :
    find place (without drop nodes) = if drop place then none else find place nodes := by
  induction nodes with
  | nil => simp [without, find]
  | cons head rest ih =>
      obtain ⟨p, node⟩ := head
      simp only [without] at ih
      by_cases dropped : drop p = true
      · by_cases here : p = place
        · subst here; simp [without, dropped, ih]
        · simp [without, find, dropped, here, ih]
      · by_cases here : p = place
        · subst here; simp [without, find, dropped]
        · simp [without, find, dropped, here, ih]

def empty : FileTree := ⟨[]⟩

def put (tree : FileTree) (place : RealPath) (node : Node) : FileTree :=
  ⟨(place, node) :: without (· == place) tree.nodes⟩

def erase (tree : FileTree) (place : RealPath) : FileTree := ⟨without (· == place) tree.nodes⟩

def isBelow (top place : RealPath) : Bool := top.isPrefixOf place && top != place

def eraseBelow (tree : FileTree) (top : RealPath) : FileTree := ⟨without (isBelow top) tree.nodes⟩

theorem get?_put (tree : FileTree) (place other : RealPath) (node : Node) (inside : place ≠ []) :
    (tree.put place node).get? other = if other = place then some node else tree.get? other := by
  by_cases top : other = []
  · subst top
    simp [get?, Ne.symm inside]
  · by_cases same : other = place
    · subst same; simp [get?, top, put, find]
    · simp [get?, top, put, find, find_without, same, Ne.symm same]

theorem get?_erase (tree : FileTree) (place other : RealPath) :
    (tree.erase place).get? other =
      if other = place ∧ other ≠ [] then none else tree.get? other := by
  by_cases top : other = []
  · simp [get?, top]
  · simp [get?, top, erase, find_without]

theorem get?_eraseBelow (tree : FileTree) (top other : RealPath) :
    (tree.eraseBelow top).get? other = if isBelow top other then none else tree.get? other := by
  by_cases root : other = []
  · subst root
    have : isBelow top [] = false := by
      cases top <;> simp [isBelow]
    simp [get?, this]
  · simp [get?, root, eraseBelow, find_without]

def hasBelow (tree : FileTree) (top : RealPath) : Bool :=
  tree.nodes.any (fun entry => isBelow top entry.1)

def children (tree : FileTree) (top : RealPath) : List String :=
  (KeySet.ofKeys (tree.nodes.filterMap (fun entry =>
    if isBelow top entry.1 then (entry.1.drop top.length).head? else none))).keys

/-- Everything below a place, with the rest of its path. -/
def below (tree : FileTree) (top : RealPath) : List (RealPath × Node) :=
  tree.nodes.filterMap (fun entry =>
    if isBelow top entry.1 then some (entry.1.drop top.length, entry.2) else none)

end FileTree

end PlatformBundle
