import DocTree.Listing

/-!
# The forest of records

The records of a listing, each under the record that its identifier names as its parent. The nodes
are numbered by an order of the keys; a node without a parent is a root.

In the canonical order a parent stands before its children, since its key is the beginning of
theirs, and every record hangs on the parent that it names. In another order a parent may stand
after its child. It then adopts the child only if it is a root itself: nodes are attached from the
last to the first, and a node that is attached already takes no more children.

That guard is what makes a forest of every order. Without it a node could be attached to one that
hangs below it, and nothing in the keys alone forbids this, as long as any list is accepted as an
order. `Proofs.ParentTable` says which node adopts which, for every order; `Proofs.AnyOrder` draws
the conclusions from that, and `Proofs.PrefixForest` those for the canonical order, where the guard
never refuses.
-/

set_option autoImplicit false

namespace DocTree

/-- A record, the numbers of the nodes under it, and the key under which it is listed. Children are
numbers, so a node can be changed without touching its parent. -/
structure Node where
  key : String
  record : Record
  children : List Nat

structure Forest where
  nodes : Array Node
  roots : List Nat

namespace Forest

/-! ## Links

Attaching keeps two tables in step, the parent of each node and its children. The guard asks the
first, and the forest is built from the second. A child goes in front of those that are there, so
working from the last node to the first leaves the children in the order of their numbers. -/

/-- The number of the node that `key` names as its parent. The key alone decides, whatever section
its record carries. -/
def namedParent (order : List String) (key : String) : Option Nat :=
  (Ident.parentKey key).bind fun parent => order.idxOf? parent

/-- The tables that are filled while nodes are attached: the parent of each node, and the children
of each. -/
structure Links where
  parents : Array (Option Nat)
  children : Array (List Nat)

namespace Links

def blank (size : Nat) : Links := ⟨Array.replicate size none, Array.replicate size []⟩

/-- Whether a node may adopt another one: only as long as it has no parent itself. So nothing that
hangs somewhere is hung upon, and no circle can be closed. -/
def mayAdopt (links : Links) (parent child : Nat) : Bool :=
  parent != child && links.parents[parent]? == some none

def adopt (links : Links) (parent child : Nat) : Links :=
  ⟨links.parents.setIfInBounds child (some parent), links.children.modify parent (child :: ·)⟩

end Links

def attach (order : List String) (entry : String × Nat) (links : Links) : Links :=
  match namedParent order entry.1 with
  | some parent => if links.mayAdopt parent entry.2 then links.adopt parent entry.2 else links
  | none => links

def attachAll (order : List String) (entries : List (String × Nat)) : Links :=
  entries.foldr (attach order) (Links.blank order.length)

def links (order : List String) : Links := attachAll order order.zipIdx

/-! ## Assembly -/

/-- The forest of a listing, its nodes numbered by an order of the keys. A key that the listing does
not have makes no node. -/
def assemble (listing : Listing) (order : List String) : Forest :=
  let links := links order
  let nodes := order.zipIdx.filterMap fun entry =>
    (listing.get? entry.1).map fun record =>
      ⟨entry.1, record, links.children.getD entry.2 []⟩
  ⟨nodes.toArray, (List.range order.length).filter fun n => links.parents[n]? == some none⟩

end Forest

end DocTree
