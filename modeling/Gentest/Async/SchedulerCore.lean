import Gentest.Lib.Interleaving
import Gentest.Lib.Removal

/-!
# The scheduler core

`AsyncSchedulerCore` keeps seven tables keyed by coroutine addresses. A frame
object has an identity of its own besides its address: an address is free
again once its frame is gone. The tables hold owning pointers, so a frame in
`frames` is alive and no other live frame has its address.

Every definition is one locked section of the source. The flags of frames and
tokens live outside the core: the canceled frames and the live tokens are
passed in.
-/

namespace Gentest.Async.SchedulerCore

open Removal (lookup_insert_eq lookup_erase_eq)

abbrev Addr := Nat

/-- An `AsyncFrame` object and the address of its coroutine. -/
structure Frame where
  id : Nat
  address : Addr
  deriving DecidableEq, Repr

inductive SuspendKind
  | suspended
  | yielded
  deriving DecidableEq, Repr

/-- `std::source_location`; the file name may be a null pointer. -/
structure SourceLocation where
  fileName : Option String
  line : Nat
  deriving DecidableEq, Repr

structure BlockedHandle where
  owner : Nat
  kind : SuspendKind
  sequence : Nat
  reason : String
  file : String
  line : Nat
  deriving DecidableEq, Repr

structure ChildReference where
  child : Addr
  parentLinkIndex : Nat
  deriving DecidableEq, Repr

structure ParentReference where
  parent : Addr
  childIndex : Nat
  deriving DecidableEq, Repr

abbrev Table (β : Type) := Finmap fun _ : Addr => β

structure Core where
  ready : List Frame := []
  frames : Table Frame := ∅
  owners : Table Nat := ∅
  children : Table (List ChildReference) := ∅
  parents : Table (List ParentReference) := ∅
  blocked : Table BlockedHandle := ∅
  waiterTokens : Table (List Nat) := ∅
  suspendSequence : Nat := 0
  deriving DecidableEq

def Core.registerFrame (s : Core) (owner : Nat) (frame : Frame) : Core :=
  { s with
    frames := s.frames.insert frame.address frame
    owners := s.owners.insert frame.address owner }

/-- `owner_for_locked`, with `none` for `kInvalidOwner`. -/
def Core.ownerFor (s : Core) (address : Addr) : Option Nat := s.owners.lookup address

def Core.frameFor (s : Core) (address : Addr) : Option Frame := s.frames.lookup address

/-- The section of `make_waiter` that keeps the token, `none` where the token
is canceled instead. -/
def Core.makeWaiter (s : Core) (frame : Frame) (token : Nat) : Option Core :=
  match s.ownerFor frame.address with
  | none => none
  | some _ =>
    let tokens := (s.waiterTokens.lookup frame.address).getD []
    some { s with waiterTokens := s.waiterTokens.insert frame.address (tokens ++ [token]) }

/-- `post`, with whether it wakes the scheduler. -/
def Core.post (s : Core) (canceled : List Nat) (done : Bool) (frame : Frame) : Core × Bool :=
  let address := frame.address
  match s.ownerFor address with
  | none => ({ s with blocked := s.blocked.erase address }, false)
  | some _ =>
    if canceled.contains frame.id || done then
      ({ s with blocked := s.blocked.erase address }, false)
    else
      ({ s with blocked := s.blocked.erase address, ready := s.ready ++ [frame] }, true)

def SourceLocation.file (loc : SourceLocation) : String := loc.fileName.getD ""

def Core.block (s : Core) (address : Addr) (kind : SuspendKind) (reason : String)
    (loc : SourceLocation) : Core :=
  match s.ownerFor address with
  | none => s
  | some owner => { s with
      suspendSequence := s.suspendSequence + 1
      blocked := s.blocked.insert address
        { owner := owner
          kind := kind
          sequence := s.suspendSequence + 1
          reason := if reason.isEmpty then "async test cannot resume" else reason
          file := loc.file
          line := loc.line } }

/-- `yield`, with whether it wakes the scheduler. -/
def Core.yield (s : Core) (canceled : List Nat) (done : Bool) (address : Addr)
    (loc : SourceLocation) : Core × Bool :=
  match s.frameFor address, s.ownerFor address with
  | some frame, some owner =>
    if canceled.contains frame.id || done then (s, false)
    else ({ s with
      suspendSequence := s.suspendSequence + 1
      blocked := s.blocked.insert address
        { owner := owner
          kind := .yielded
          sequence := s.suspendSequence + 1
          reason := "yielded cooperatively"
          file := loc.file
          line := loc.line }
      ready := s.ready ++ [frame] }, true)
  | _, _ => (s, false)

def Core.attachChild (s : Core) (child : Frame) (parent : Addr) : Core :=
  match s.ownerFor parent with
  | none => s
  | some parentOwner =>
    let children := (s.children.lookup parent).getD []
    let parents := (s.parents.lookup child.address).getD []
    { s with
      frames := s.frames.insert child.address child
      owners := s.owners.insert child.address parentOwner
      children := s.children.insert parent (children ++ [⟨child.address, parents.length⟩])
      parents := s.parents.insert child.address (parents ++ [⟨parent, children.length⟩]) }

/-- `pop_ready` skips the frames that were canceled. -/
def popReadyFrom (canceled : List Nat) : List Frame → Option Frame × List Frame
  | [] => (none, [])
  | frame :: rest =>
    if canceled.contains frame.id then popReadyFrom canceled rest else (some frame, rest)

def Core.popReady (s : Core) (canceled : List Nat) : Option Frame × Core :=
  let out := popReadyFrom canceled s.ready
  (out.1, { s with ready := out.2 })

def Core.clearSuspendState (s : Core) (frame : Frame) : Core :=
  { s with blocked := s.blocked.erase frame.address }

-- ---------------------------------------------------------------------------
-- Cancellation
-- ---------------------------------------------------------------------------

/-- The index a child keeps for its place among its parent's children. -/
def relink (parents : Table (List ParentReference)) (moved : ChildReference) (index : Nat) :
    Table (List ParentReference) :=
  match parents.lookup moved.child with
  | none => parents
  | some links =>
    match links[moved.parentLinkIndex]? with
    | none => parents
    | some link =>
      parents.insert moved.child (links.set moved.parentLinkIndex { link with childIndex := index })

/-- One turn of the loop of `remove_child_references_locked`: the last child
takes the place of the one removed. -/
def removeReference (address : Addr) (s : Core) (parent : ParentReference) : Core :=
  match s.children.lookup parent.parent with
  | none => s
  | some children =>
    if (children[parent.childIndex]?).map ChildReference.child ≠ some address then s
    else
      let lastIndex := children.length - 1
      let moved := if parent.childIndex ≠ lastIndex then children.getLast? else none
      let left := match moved with
        | none => children.dropLast
        | some last => (children.set parent.childIndex last).dropLast
      { s with
        children :=
          if left.isEmpty then s.children.erase parent.parent
          else s.children.insert parent.parent left
        parents := match moved with
          | none => s.parents
          | some last => relink s.parents last parent.childIndex }

def removeChildReferencesLocked (address : Addr) (s : Core) : Core :=
  match s.parents.lookup address with
  | none => s
  | some parents =>
    parents.foldl (removeReference address) { s with parents := s.parents.erase address }

/-- What a cancellation carries along under the lock: the core, the flags of
the frames and the tokens to cancel once the lock is released. -/
structure Cancellation where
  core : Core
  canceled : List Nat
  tokens : List Nat
  deriving DecidableEq

/-- `frame->cancel()` where the address has a frame. -/
def Cancellation.markCanceled (c : Cancellation) (address : Addr) : Cancellation :=
  match c.core.frameFor address with
  | none => c
  | some frame => { c with canceled := frame.id :: c.canceled }

/-- The part of `cancel_address_locked` after its children. -/
def Cancellation.forget (live : Nat → Bool) (c : Cancellation) (address : Addr) : Cancellation :=
  let s := removeChildReferencesLocked address c.core
  { c with
    core := { s with
      waiterTokens := s.waiterTokens.erase address
      blocked := s.blocked.erase address
      owners := s.owners.erase address
      frames := s.frames.erase address
      ready := s.ready.filter fun frame => !(frame.address == address) }
    tokens := c.tokens ++ ((s.waiterTokens.lookup address).getD []).filter live }

/-- `cancel_address_locked`. An entry of `children` is moved out before the
recursion goes into it, so one more level than there are entries is enough
fuel. -/
def cancelAddressLocked (live : Nat → Bool) : Nat → Cancellation → Addr → Cancellation
  | 0, c, _ => c
  | fuel + 1, c, address =>
    let c := c.markCanceled address
    let children := (c.core.children.lookup address).getD []
    let c := { c with core := { c.core with children := c.core.children.erase address } }
    let c := children.foldl (fun c child => cancelAddressLocked live fuel c child.child) c
    c.forget live address

def cancelAddress (live : Nat → Bool) (c : Cancellation) (address : Addr) : Cancellation :=
  cancelAddressLocked live (c.core.children.keys.card + 1) c address

/-- The loop of `cancel_matching` over the addresses it collected. -/
def cancelAddresses (live : Nat → Bool) (c : Cancellation) (addresses : List Addr) : Cancellation :=
  addresses.foldl (cancelAddress live) c

end Gentest.Async.SchedulerCore
