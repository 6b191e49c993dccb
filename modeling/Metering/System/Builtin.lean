import Metering.Collector

/-!
# Built-in collectors

What every process can tell about itself and its runtime.
-/

namespace Metering.Builtin

def plainGauge (name help : String) (x : Number) : Family :=
  ⟨name, .gauge, help, [⟨name, ∅, some x⟩]⟩

def process : Collector := .fixed [
  plainGauge "process_virtual_memory_bytes" "Virtual memory size in bytes." 8192000.0,
  plainGauge "process_resident_memory_bytes" "Resident memory size in bytes." 102400.0,
  plainGauge "process_start_time_seconds"
    "Start time of the process since unix epoch in seconds." 1700000042.0,
  ⟨"process_cpu_seconds", .counter, "Total user and system CPU time spent in seconds.",
    [⟨"process_cpu_seconds_total", ∅, some 2.0⟩]⟩,
  plainGauge "process_open_fds" "Number of open file descriptors." 3,
  plainGauge "process_max_fds" "Maximum number of open file descriptors." 1024.0]

def platform : Collector := .fixed [
  ⟨"python_info", .gauge, "Python platform information",
    [⟨"python_info", .ofList [("version", "3.11.2"), ("implementation", "CPython"),
      ("major", "3"), ("minor", "11"), ("patchlevel", "2")], some 1⟩]⟩]

/-- A counter with one sample for each generation of objects. -/
def generationCounter (name help : String) (numbers : List Number) : Family :=
  ⟨name, .counter, help, (["0", "1", "2"].zip numbers).map fun e =>
    ⟨name ++ Family.totalSuffix, .ofList [("generation", e.1)], some e.2⟩⟩

def garbage : Collector := .fixed [
  generationCounter "python_gc_objects_collected" "Objects collected during gc" [100, 200, 300],
  generationCounter "python_gc_objects_uncollectable" "Uncollectable objects found during GC"
    [0, 1, 2],
  generationCounter "python_gc_collections" "Number of times this generation was collected"
    [30, 20, 10]]

end Metering.Builtin
