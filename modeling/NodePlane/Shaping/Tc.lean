import NodePlane.Library.Slots
import Mathlib.Data.Nat.Bits
import NodePlane.Shaping.Allocate

/-! The `tc` commands of one device: a full build of its classes and filters, the commands
that change them in place, and what the kernel does with either. -/
namespace NodePlane
namespace Shaping
open Library

/-- How packets of one client are recognised. -/
inductive Match
  | mark (mark : ℕ)
  | destination (address : String)
  | source (address : String)
  deriving DecidableEq, Repr

/-- Protocol, priority, handle and kind of a filter: enough to delete it. -/
inductive FilterKey
  | fw (mark : ℕ)
  | flower (v6 : Bool) (handle : ℕ)
  deriving DecidableEq, Repr

def isV6 (address : String) : Bool := address.toList.contains ':'

/-- A mark is its own handle; an address gets `handle`. -/
def Match.key (item : Match) (handle : ℕ) : FilterKey :=
  match item with
  | .mark n => .fw n
  | .destination address | .source address => .flower (isV6 address) handle

/-- One limited client in one direction. -/
structure Class where
  minor : ℕ
  kbit : ℕ
  selectors : List Match
  deriving DecidableEq, Repr

/-- Handle and match of each filter of the class. -/
def Class.filters (c : Class) : List (ℕ × Match) :=
  c.selectors.zipIdx.map fun item => ((c.minor <<< 8) ||| (item.2 + 1), item.1)

/-- Where a filter sits: on the HTB root, or on the device's ingress. -/
inductive Parent
  | root
  | ingress
  deriving DecidableEq, Repr

inductive FilterAction
  | classid (minor : ℕ)
  | redirect (ifb : String)
  deriving DecidableEq, Repr

def FilterAction.parent : FilterAction → Parent
  | .classid _ => .root
  | .redirect _ => .ingress

structure Filter where
  key : FilterKey
  select : Match
  action : FilterAction
  deriving DecidableEq, Repr

inductive Speed
  | unlimited
  | kbit (kbit : ℕ)
  deriving DecidableEq, Repr

inductive Command
  | addRoot (default : ℕ)
  | addClass (minor : ℕ) (speed : Speed)
  | changeClass (minor kbit : ℕ)
  | deleteClass (minor : ℕ)
  | addLeaf (minor : ℕ)
  | addFilter (filter : Filter)
  | deleteFilter (parent : Parent) (key : FilterKey)
  deriving DecidableEq, Repr

/-! The lines that the batch is made of. -/

def hex (n : ℕ) : String := String.ofList (Nat.toDigits 16 n)

def classId (minor : ℕ) : String := "1:" ++ hex minor

def FilterKey.text : FilterKey → String
  | .fw mark => "protocol all prio 3 handle 0x" ++ hex mark ++ " fw"
  | .flower v6 handle =>
    "protocol " ++ (if v6 then "ipv6 prio 2" else "ip prio 1") ++ " handle 0x" ++ hex handle ++
      " flower"

def Filter.selector (filter : Filter) : String :=
  match filter.select with
  | .mark n => "protocol all prio 3 handle 0x" ++ hex n ++ "/0xffffffff fw"
  | .destination address => filter.key.text ++ " dst_ip " ++ address
  | .source address => filter.key.text ++ " src_ip " ++ address

def Parent.text : Parent → String
  | .root => "parent 1:"
  | .ingress => "ingress"

def Speed.text : Speed → String
  | .unlimited => "100gbit"
  | .kbit n => toString n ++ "kbit ceil " ++ toString n ++ "kbit"

def Command.text (dev : String) : Command → String
  | .addRoot default => "qdisc add dev " ++ dev ++ " root handle 1: htb default " ++ hex default
  | .addClass minor speed =>
    "class add dev " ++ dev ++ " parent 1: classid " ++ classId minor ++ " htb rate " ++ speed.text
  | .changeClass minor kbit =>
    "class change dev " ++ dev ++ " parent 1: classid " ++ classId minor ++ " htb rate " ++
      (Speed.kbit kbit).text
  | .deleteClass minor => "class del dev " ++ dev ++ " classid " ++ classId minor
  | .addLeaf minor => "qdisc add dev " ++ dev ++ " parent " ++ classId minor ++ " fq_codel"
  | .addFilter filter =>
    "filter add dev " ++ dev ++ " " ++ filter.action.parent.text ++ " " ++ filter.selector ++
      match filter.action with
      | .classid minor => " classid " ++ classId minor
      | .redirect ifb => " action mirred egress redirect dev " ++ ifb
  | .deleteFilter parent key => "filter del dev " ++ dev ++ " " ++ parent.text ++ " " ++ key.text

/-! The commands for lists of classes. -/

/-- Where a class's filters sit: classifying on the HTB root, or redirecting ingress packets
to an ifb device. -/
inductive Filters
  | classify
  | redirect (ifb : String)
  deriving DecidableEq, Repr

namespace Filters

def action (filters : Filters) (c : Class) : FilterAction :=
  match filters with
  | .classify => .classid c.minor
  | .redirect ifb => .redirect ifb

def parent : Filters → Parent
  | .classify => .root
  | .redirect _ => .ingress

/-- The filters of a class. -/
def of (filters : Filters) (c : Class) : List Filter :=
  c.filters.map fun f => ⟨f.2.key f.1, f.2, filters.action c⟩

def add (filters : Filters) (c : Class) : List Command := (filters.of c).map .addFilter

def delete (filters : Filters) (c : Class) : List Command :=
  (filters.of c).map fun f => .deleteFilter filters.parent f.key

end Filters

def addClass (c : Class) : List Command :=
  [.addClass c.minor (.kbit c.kbit), .addLeaf c.minor] ++ Filters.classify.add c

/-- Root HTB: one class per client, everything else unlimited. -/
def htb (classes : List Class) : List Command :=
  [.addRoot defaultClass, .addClass defaultClass .unlimited] ++ classes.flatMap addClass

/-- Ingress filters that send packets of `classes` to `ifb`. -/
def redirectIngress (ifb : String) (classes : List Class) : List Command :=
  classes.flatMap (Filters.redirect ifb).add

section
variable (filters : Filters) (classes : Bool) (old new : List Class)

/-- What goes of one old class. -/
def removal (c : Class) : List Command :=
  match findKey Class.minor new c.minor with
  | none => filters.delete c ++ if classes then [.deleteClass c.minor] else []
  | some next => if next.selectors ≠ c.selectors then filters.delete c else []

/-- What comes for one new class. -/
def addition (c : Class) : List Command :=
  match findKey Class.minor old c.minor with
  | none => if classes then addClass c else filters.add c
  | some previous =>
    (if classes ∧ previous.kbit ≠ c.kbit then [.changeClass c.minor c.kbit] else []) ++
      if previous.selectors ≠ c.selectors then filters.add c else []

/-- Commands that turn classes `old` into `new`: removed classes and changed filters go
first, then rates change and new classes come. -/
def changes : List Command :=
  old.flatMap (removal filters classes new) ++ new.flatMap (addition filters classes old)

end

/-- In-place changes of a tree built by `htb`. -/
def htbChanges (old new : List Class) : List Command := changes .classify true old new

/-- In-place changes of filters built by `redirectIngress`. -/
def redirectChanges (ifb : String) (old new : List Class) : List Command :=
  changes (.redirect ifb) false old new

example :
    (htbChanges
      [⟨1, 1000, [.destination "10.8.1.2/32"]⟩, ⟨2, 2000, [.destination "10.8.1.3/32"]⟩,
        ⟨3, 3000, [.destination "10.8.1.4/32"]⟩]
      [⟨1, 1000, [.destination "10.8.1.2/32"]⟩, ⟨2, 5000, [.destination "10.8.1.5/32"]⟩,
        ⟨4, 4000, [.destination "10.8.1.6/32"]⟩]).map (Command.text "wg0") =
      ["filter del dev wg0 parent 1: protocol ip prio 1 handle 0x201 flower",
        "filter del dev wg0 parent 1: protocol ip prio 1 handle 0x301 flower",
        "class del dev wg0 classid 1:3",
        "class change dev wg0 parent 1: classid 1:2 htb rate 5000kbit ceil 5000kbit",
        "filter add dev wg0 parent 1: protocol ip prio 1 handle 0x201 flower dst_ip 10.8.1.5/32 classid 1:2",
        "class add dev wg0 parent 1: classid 1:4 htb rate 4000kbit ceil 4000kbit",
        "qdisc add dev wg0 parent 1:4 fq_codel",
        "filter add dev wg0 parent 1: protocol ip prio 1 handle 0x401 flower dst_ip 10.8.1.6/32 classid 1:4"] := by
  decide

/-! The device. -/

/-- What commands add below the root: a class, the leaf qdisc of a class, a filter. -/
inductive Item
  | cls (minor : ℕ) (speed : Speed)
  | leaf (minor : ℕ)
  | filter (filter : Filter)
  deriving DecidableEq, Repr

/-- `root` has the default class of the root HTB, `ingress` tells whether there is an
ingress hook. -/
structure Tree where
  root : Option ℕ
  ingress : Bool
  items : List Item
  deriving DecidableEq, Repr

def Tree.hooked (tree : Tree) : Parent → Bool
  | .root => tree.root.isSome
  | .ingress => tree.ingress

/-- What no two items of a device can share. -/
inductive Slot
  | minor (minor : ℕ)
  | leaf (minor : ℕ)
  | key (parent : Parent) (key : FilterKey)
  | address (parent : Parent) (source v6 : Bool) (network : Option String)
  deriving DecidableEq, Repr

/-- The parts of `tc` that are its own: which rates a class can have, and the network that
an address names. -/
structure Kernel where
  rates : ℕ → Bool
  network : String → Option String

namespace Kernel
variable (kernel : Kernel)

/-- A filter is refused under a key that is in use, and so is a second one for a network. -/
def slots : Item → List Slot
  | .cls minor _ => [.minor minor]
  | .leaf minor => [.leaf minor]
  | .filter f =>
    .key f.action.parent f.key ::
      match f.select with
      | .mark _ => []
      | .destination address =>
        [.address f.action.parent false (isV6 address) (kernel.network address)]
      | .source address => [.address f.action.parent true (isV6 address) (kernel.network address)]

def takes : Item → Bool
  | .cls _ .unlimited => true
  | .cls _ (.kbit kbit) => kernel.rates kbit
  | .leaf _ => true
  | .filter f =>
    match f.select with
    | .mark _ => true
    | .destination address | .source address => (kernel.network address).isSome

def add (item : Item) (tree : Tree) : Option Tree :=
  if kernel.takes item ∧ (∀ other ∈ tree.items, ∀ slot ∈ kernel.slots item,
      slot ∉ kernel.slots other) then
    some { tree with items := tree.items ++ [item] }
  else
    none

/-- The item is the class. -/
def isClass (minor : ℕ) : Item → Bool
  | .cls m _ => m = minor
  | _ => false

/-- The item is the class or its leaf. -/
def belongs (minor : ℕ) : Item → Bool
  | .cls m _ | .leaf m => m = minor
  | .filter _ => false

/-- The item is a filter that classifies into the class, which keeps it busy. -/
def feeds (minor : ℕ) : Item → Bool
  | .filter f => f.action = .classid minor
  | _ => false

/-- The item with the class at another rate. -/
def paced (minor kbit : ℕ) (item : Item) : Item :=
  if isClass minor item then .cls minor (.kbit kbit) else item

def isFilter (parent : Parent) (key : FilterKey) : Item → Bool
  | .filter f => f.action.parent = parent ∧ f.key = key
  | _ => false

/-- One command; it fails as a whole. -/
def step (tree : Tree) : Command → Option Tree
  | .addRoot default => if tree.root.isSome then none else some { tree with root := some default }
  | .addClass minor speed =>
    if tree.root.isSome then kernel.add (.cls minor speed) tree else none
  | .changeClass minor kbit =>
    if tree.items.any (isClass minor) && kernel.rates kbit then
      some { tree with items := tree.items.map (paced minor kbit) }
    else
      none
  | .deleteClass minor =>
    if tree.items.any (isClass minor) && !tree.items.any (feeds minor) then
      some { tree with items := tree.items.filter fun item => !belongs minor item }
    else
      none
  | .addLeaf minor =>
    if tree.items.any (isClass minor) then kernel.add (.leaf minor) tree else none
  | .addFilter filter =>
    if tree.hooked filter.action.parent then kernel.add (.filter filter) tree else none
  | .deleteFilter parent key =>
    if tree.items.any (isFilter parent key) then
      some { tree with items := tree.items.filter fun item => !isFilter parent key item }
    else
      none

/-- A batch stops at the first command that fails. -/
def run : List Command → Tree → Option Tree
  | [], tree => some tree
  | command :: rest, tree => (kernel.step tree command).bind (run rest)

end Kernel

end Shaping
end NodePlane
