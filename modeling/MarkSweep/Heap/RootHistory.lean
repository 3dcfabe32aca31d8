import MarkSweep.Heap.History

set_option autoImplicit false

namespace MarkSweep

def Threads.isRegistered (t : Threads) (id : RecordId) : Bool := t.registered.any (·.2 == id)

inductive RootCall
  | added (addr : Addr)
  | removed (addr : Addr)
deriving DecidableEq, Repr

namespace Heap

def rootCall? (h : Heap) : Operation → Option RootCall
  | .addRoot addr => (RootSlot.atAddr? addr).map fun _ => .added addr
  | .removeRoot addr =>
    (RootSlot.atAddr? addr).bind fun slot =>
      if (h.roots.remove slot).1 then some (.removed addr) else none
  | _ => none

/-- The heaps that a program with certain settings can bring about, each with the calls about cells
that changed the registry, the latest first. -/
inductive Rooted (config : Config) : Heap → List RootCall → Prop
  | new {h : Heap} (made : Heap.new config = .ok h) : Rooted config h []
  | perform {h : Heap} {calls : List RootCall} (operation : Operation)
      (before : Rooted config h calls) (admitted : h.Admits operation) :
      Rooted config (h.perform operation).2 ((h.rootCall? operation).toList ++ calls)

/-- How often the owner of a slot has it registered. -/
def claims (calls : List RootCall) (h : Heap) : RootSlot → Nat
  | .cell addr => calls.count (.added addr) - calls.count (.removed addr)
  | .handle id => (h.handles.contains id).toNat
  | .exception id | .handler id => (h.threads.isRegistered id).toNat

end Heap

end MarkSweep
