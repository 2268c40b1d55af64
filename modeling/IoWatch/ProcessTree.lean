import IoWatch.Storage.Path

/-!
# The tree of processes

Every process has a directory, named for its number, below a common root. The counters file lies in
it.

## Main definitions

* `processDirectory`: the directory of a process
* `countersPath`: the counters file of a process
-/

namespace IoWatch

/-- The directory of a process. -/
def processDirectory (root : Path) (pid : UInt32) : Path :=
  root.join (Utf8.encode (Nat.toDigits 10 pid.toNat))

/-- The counters file of a process. -/
def countersPath (root : Path) (pid : UInt32) : Path :=
  (processDirectory root pid).join (Utf8.encode ['i', 'o'])

end IoWatch
