import MarkSweep.Heap.Contention
import MarkSweep.Heap.Dump
import MarkSweep.Heap.Retained

set_option autoImplicit false

namespace MarkSweep

inductive Operation
  | setFlags (flags : Flags)
  | addRoot (addr : Addr)
  | removeRoot (addr : Addr)
  | root (value : UInt64)
  | setHandle (id : HandleId) (value : UInt64)
  | dropHandle (id : HandleId)
  | register (thread : ThreadId) (name : String) (stackTop : Addr)
  | unregister (id : RecordId)
  | setException (id : RecordId) (value : UInt64)
  | setHandler (id : RecordId) (value : UInt64)
  | enter (c : Caller)
  | leave (id : RecordId)
  | poll (c : Caller)
  | write (addr : Addr) (w : UInt64)
  | allocate (env : Embedding) (caller : Option Caller) (size : Nat) (kind : BlockKind)
  | collect (env : Embedding) (caller : Option Caller) (patience : Patience)
  | maybeCollect (env : Embedding) (caller : Option Caller)
  | collectPolled (env : Embedding) (caller : Option Caller) (pollers : List Caller)
  | collectLeft (env : Embedding) (caller : Option Caller) (visitor : RecordId)
  | collectAllocating (env : Embedding) (caller visitor : Option Caller) (size : Nat)
      (kind : BlockKind)
  | dump (env : Embedding) (caller : Option Caller) (limit : Option Nat)
  | query (addr : Addr)
  | stats

inductive Answer
  | nothing
  | handle (id : HandleId)
  | found (known : Bool)
  | registered (result : Except Error RecordId)
  | unregistered (result : Except Error Unit)
  | left (result : Except Error Leaving)
  | block (result : Outcome Block)
  | collected (result : Outcome (Option CollectionReport))
  | wasDue (result : Outcome Bool)
  | collectedLeaving (result : Outcome (Option (CollectionReport × Except Error Unit)))
  | collectedAllocating (result : Outcome (Option (CollectionReport × Outcome Block)))
  | dumped (result : Outcome (List UInt8 × Except DumpError Unit))
  | address (isLive isManaged : Bool) (blockSize : Option Nat)
  | counts (arena : ArenaStats) (heap : Stats)

namespace Heap

def perform (h : Heap) : Operation → Answer × Heap
  | .setFlags flags => (.nothing, h.setFlags flags)
  | .addRoot addr => (.nothing, h.addRoot addr)
  | .removeRoot addr => (.nothing, h.removeRoot addr)
  | .root value => (h.root value).map .handle id
  | .setHandle handle value => (.nothing, h.setHandle handle value)
  | .dropHandle handle => (h.dropHandle handle).map .found id
  | .register thread name stackTop => (h.register thread name stackTop).map .registered id
  | .unregister record => (h.unregister record).map .unregistered id
  | .setException record value => (.nothing, h.setException record value)
  | .setHandler record value => (.nothing, h.setHandler record value)
  | .enter c => (.nothing, h.enter c)
  | .leave record => (h.leave record).map .left id
  | .poll c => (h.poll c).map .left id
  | .write addr w => (.nothing, { h with arena := h.arena.write addr w })
  | .allocate env caller size kind => (h.allocate env caller size kind).map .block id
  | .collect env caller patience => (h.collect env caller patience).map .collected id
  | .maybeCollect env caller => (h.maybeCollect env caller).map .wasDue id
  | .collectPolled env caller pollers => (h.collectPolled env caller pollers).map .collected id
  | .collectLeft env caller visitor =>
    (h.collectLeft env caller visitor).map .collectedLeaving id
  | .collectAllocating env caller visitor size kind =>
    (h.collectAllocating env caller visitor size kind).map .collectedAllocating id
  | .dump env caller limit => (h.dump env caller limit).map .dumped id
  | .query addr => (.address (h.isLive addr) (h.isManaged addr) (h.blockSizeOf? addr), h)
  | .stats => (.counts h.arena.stats h.stats, h)

/-- Whether a caller is one that there is: its record exists, and its snapshot is a real one. -/
def HasCaller (h : Heap) (c : Caller) : Prop :=
  (h.threads.record? c.record).isSome = true ∧ c.now.isCaptured = true

def Admits (h : Heap) : Operation → Prop
  | .write addr _ =>
    wordBytes ∣ addr ∧ ∃ b, h.arena.Holds b ∧ b.addr ≤ addr ∧ addr + wordBytes ≤ b.addr + b.size
  | .enter c | .poll c => h.HasCaller c
  | .allocate env caller _ _ | .collect env caller _ | .maybeCollect env caller
  | .collectLeft env caller _ | .dump env caller _ => env.IsSound ∧ ∀ c ∈ caller, h.HasCaller c
  | .collectPolled env caller pollers =>
    env.IsSound ∧ (∀ c ∈ caller, h.HasCaller c) ∧ ∀ c ∈ pollers, h.HasCaller c
  | .collectAllocating env caller visitor _ _ =>
    env.IsSound ∧ (∀ c ∈ caller, h.HasCaller c) ∧ ∀ c ∈ visitor, h.HasCaller c
  | _ => True

/-- The heaps that a program with certain settings can bring about. -/
inductive Reachable (config : Config) : Heap → Prop
  | new {h : Heap} (made : Heap.new config = .ok h) : Reachable config h
  | perform {h : Heap} (operation : Operation) (before : Reachable config h)
      (admitted : h.Admits operation) : Reachable config (h.perform operation).2

end Heap

end MarkSweep
