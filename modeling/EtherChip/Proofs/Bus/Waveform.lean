import Mathlib.Data.List.DropRight
import Mathlib.Data.List.ReduceOption
import EtherChip.Bytes

/-!
# Waveforms

What the input lines of a chip go through, one entry for each step. A waveform falls into runs of
selected steps. In a run the data level counts at every rising edge of the clock, eight levels make a
byte, and the first step after the run releases the chip. `events` tells at which steps a byte is
complete or the chip is released; `events_run` reads it back run by run.
-/
namespace EtherChip

/-- What the environment sets the three input lines to before a step. -/
structure Levels where
  ss : Bool
  sck : Bool
  mosi : Bool
  deriving DecidableEq, Repr

def Levels.selected (l : Levels) : Bool := !l.ss

abbrev Waveform := List Levels

/-- What a step can mean to the framing. -/
inductive BusEvent where
  /-- A byte is complete. -/
  | byte (b : UInt8)
  /-- The chip has been deselected. -/
  | release
  deriving DecidableEq, Repr

namespace Waveform

/-- Data levels at the rising edges of the clock, which has the given level before the first step. -/
def risingBits (clock : Bool) : Waveform → List Bool
  | [] => []
  | l :: w => (if l.sck && !clock then [l.mosi] else []) ++ risingBits l.sck w

/-- The bytes that bits make, eight by eight. Fewer than eight at the end make no byte. -/
def packed (bits : List Bool) : Bytes :=
  (List.range (bits.length / 8)).map fun i => ofBits ((bits.drop (8 * i)).take 8)

/-- The bytes of a run of selected steps; a clock that is high at its first step has risen there. -/
def bytes (run : Waveform) : Bytes := packed (risingBits false run)

/-- The run of selected steps in which a waveform ends. -/
def lastRun (past : Waveform) : Waveform := past.rtakeWhile Levels.selected

/-- What a step means after some past: the byte that it adds to those of its run, or the end of
the run before it. -/
def event? (past : Waveform) (now : Levels) : Option BusEvent :=
  if now.selected then ((bytes (lastRun past ++ [now]))[(bytes (lastRun past)).length]?).map .byte
  else if lastRun past = [] then none
  else some .release

def eventsAfter (past : Waveform) : Waveform → List (Option BusEvent)
  | [] => []
  | l :: w => event? past l :: eventsAfter (past ++ [l]) w

/-- What each step of a waveform means. -/
def events (w : Waveform) : List (Option BusEvent) := eventsAfter [] w

/-! ## Runs -/

theorem lastRun_selected (past : Waveform) {now : Levels} (selected : now.selected = true) :
    lastRun (past ++ [now]) = lastRun past ++ [now] :=
  List.rtakeWhile_concat_pos _ _ _ selected

theorem lastRun_released (past : Waveform) {now : Levels} (released : now.selected = false) :
    lastRun (past ++ [now]) = [] :=
  List.rtakeWhile_concat_neg _ _ _ (by simp [released])

theorem lastRun_append (past : Waveform) {run : Waveform} (selected : ∀ l ∈ run, l.selected = true) :
    lastRun (past ++ run) = lastRun past ++ run := by
  induction run generalizing past with
  | nil => simp
  | cons l run ih =>
    have first := lastRun_selected past (selected l List.mem_cons_self)
    have rest := ih (past ++ [l]) fun x member => selected x (List.mem_cons_of_mem l member)
    rwa [first, List.append_assoc, List.append_assoc] at rest

theorem eventsAfter_append (past w w' : Waveform) :
    eventsAfter past (w ++ w') = eventsAfter past w ++ eventsAfter (past ++ w) w' := by
  induction w generalizing past with
  | nil => simp [eventsAfter]
  | cons l w ih =>
    rw [List.cons_append, eventsAfter, eventsAfter, ih, List.append_assoc]
    rfl

/-- The runs of selected steps. Between two adjacent released steps there is an empty one. -/
def runs (w : Waveform) : List Waveform := w.splitOnP (·.ss)

theorem runs_cons (l : Levels) (w : Waveform) :
    runs (l :: w) = if l.ss then [] :: runs w else (runs w).modifyHead (l :: ·) :=
  List.splitOnP_cons_eq_if_modifyHead l w

theorem modifyHead_runs (w : Waveform) : (runs w).modifyHead ([] ++ ·) = runs w := congrFun List.modifyHead_id _

/-! ## Edges -/

/-- The clock level that a waveform leaves. -/
def clockAfter (clock : Bool) (w : Waveform) : Bool := w.foldl (fun _ l => l.sck) clock

theorem risingBits_append (clock : Bool) (w w' : Waveform) :
    risingBits clock (w ++ w') = risingBits clock w ++ risingBits (clockAfter clock w) w' := by
  induction w generalizing clock with
  | nil => rfl
  | cons l w ih => rw [List.cons_append, risingBits, risingBits, ih, List.append_assoc]; rfl

theorem clockAfter_concat (clock : Bool) (w : Waveform) (l : Levels) : clockAfter clock (w ++ [l]) = l.sck :=
  List.foldl_append

/-- Rising edges so far in the run in which a waveform ends. -/
def edgesAfter (w : Waveform) : Nat := (risingBits false (lastRun w)).length

/-- The clock rises at a selected step: it was low before, or this is the first step of a run. -/
def rises (past : Waveform) (now : Levels) : Bool := now.selected && now.sck && !clockAfter false (lastRun past)

theorem edgesAfter_selected (past : Waveform) {now : Levels} (selected : now.selected = true) :
    edgesAfter (past ++ [now]) = edgesAfter past + (rises past now).toNat := by
  rw [edgesAfter, lastRun_selected past selected, risingBits_append, List.length_append, rises, selected]
  cases edge : now.sck && !clockAfter false (lastRun past) <;> simp only [risingBits, edge, Bool.true_and] <;> rfl

/-- Edges from a step with a low clock on. -/
theorem edgesAfter_from (past : Waveform) {start : Levels} {later : Waveform} (selected : start.selected = true)
    (low : start.sck = false) (run : ∀ l ∈ later, l.selected = true) :
    edgesAfter (past ++ start :: later) = edgesAfter (past ++ [start]) + (risingBits false later).length := by
  have clock : clockAfter false (lastRun (past ++ [start])) = false := by
    rw [lastRun_selected past selected, clockAfter_concat, low]
  rw [edgesAfter, ← List.singleton_append, ← List.append_assoc, lastRun_append _ run, risingBits_append,
    List.length_append, clock]
  rfl

/-- The bits beyond the last whole byte. -/
def leftover (bits : List Bool) : List Bool := bits.drop (8 * (bits.length / 8))

theorem length_leftover (bits : List Bool) : (leftover bits).length = bits.length % 8 := by
  rw [leftover, List.length_drop]
  omega

theorem length_packed (bits : List Bool) : (packed bits).length = bits.length / 8 := by
  rw [packed, List.length_map, List.length_range]

/-- A whole byte stays the same whatever bits come after it. -/
theorem packed_append (bits later : List Bool) :
    packed (bits ++ later) =
      packed bits ++ (List.range ((bits ++ later).length / 8 - bits.length / 8)).map fun i =>
        ofBits (((leftover bits ++ later).drop (8 * i)).take 8) := by
  have more : (bits ++ later).length / 8 = bits.length / 8 + ((bits ++ later).length / 8 - bits.length / 8) := by
    rw [List.length_append]
    omega
  rw [packed, more, List.range_add, List.map_append, List.map_map]
  congr 1
  · refine List.map_congr_left fun i lt => ?_
    have whole : 8 * i + 8 ≤ bits.length := by
      have := List.mem_range.mp lt
      omega
    rw [List.drop_append_of_le_length (by omega), List.take_append_of_le_length (by rw [List.length_drop]; omega)]
  · rw [Nat.add_sub_cancel_left]
    refine List.map_congr_left fun i _ => ?_
    rw [Function.comp_apply, leftover, Nat.mul_add, ← List.drop_drop,
      List.drop_append_of_le_length (Nat.mul_div_le _ _)]

theorem packed_concat_whole {bits : List Bool} (level : Bool) (last : bits.length % 8 = 7) :
    packed (bits ++ [level]) = packed bits ++ [ofBits (leftover bits ++ [level])] := by
  have one : (bits ++ [level]).length / 8 - bits.length / 8 = 1 := by
    rw [List.length_append, List.length_singleton]
    omega
  have eight : (leftover bits ++ [level]).length = 8 := by
    rw [List.length_append, length_leftover, last, List.length_singleton]
  rw [packed_append, one]
  simp [List.take_of_length_le (Nat.le_of_eq eight)]

theorem packed_concat_part {bits : List Bool} (level : Bool) (more : bits.length % 8 ≠ 7) :
    packed (bits ++ [level]) = packed bits := by
  have none : (bits ++ [level]).length / 8 - bits.length / 8 = 0 := by
    rw [List.length_append, List.length_singleton]
    omega
  rw [packed_append, none, List.range_zero, List.map_nil, List.append_nil]

theorem leftover_concat_whole {bits : List Bool} (level : Bool) (last : bits.length % 8 = 7) :
    leftover (bits ++ [level]) = [] := by
  rw [leftover, List.drop_eq_nil_iff, List.length_append, List.length_singleton]
  omega

theorem leftover_concat_part {bits : List Bool} (level : Bool) (more : bits.length % 8 ≠ 7) :
    leftover (bits ++ [level]) = leftover bits ++ [level] := by
  have same : (bits ++ [level]).length / 8 = bits.length / 8 := by
    rw [List.length_append, List.length_singleton]
    omega
  rw [leftover, same, List.drop_append_of_le_length (Nat.mul_div_le _ _)]
  rfl

/-! ## Events of a run -/

/-- The bytes of a run are there to stay. -/
theorem bytes_append (run later : Waveform) : ∃ more, bytes (run ++ later) = bytes run ++ more := by
  rw [bytes, risingBits_append, packed_append]
  exact ⟨_, rfl⟩

/-- A step completes one byte at most. -/
theorem bytes_concat (run : Waveform) (now : Levels) :
    bytes (run ++ [now]) = bytes run ++ ((bytes (run ++ [now]))[(bytes run).length]?).toList := by
  obtain ⟨more, eq⟩ := bytes_append run [now]
  have few : more.length ≤ 1 := by
    have len := congrArg List.length eq
    have edges : (risingBits (clockAfter false run) [now]).length ≤ 1 := by
      rw [risingBits, risingBits, List.append_nil]
      split <;> simp
    rw [bytes, bytes, List.length_append, length_packed, length_packed, risingBits_append, List.length_append] at len
    omega
  rw [eq, List.getElem?_append_right (Nat.le_refl _), Nat.sub_self]
  match more, few with
  | [], _ => rfl
  | [b], _ => rfl

/-- The events at selected steps are the bytes that these steps add to those of their run. -/
theorem events_selected (past : Waveform) {run : Waveform} (selected : ∀ l ∈ run, l.selected = true) :
    (bytes (lastRun past ++ run)).map BusEvent.byte =
      (bytes (lastRun past)).map .byte ++ (eventsAfter past run).reduceOption := by
  induction run generalizing past with
  | nil => simp [eventsAfter]
  | cons l run ih =>
    have now : l.selected = true := selected l List.mem_cons_self
    have rest := ih (past ++ [l]) fun x member => selected x (List.mem_cons_of_mem l member)
    have event : [event? past l].reduceOption =
        (((bytes (lastRun past ++ [l]))[(bytes (lastRun past)).length]?).toList).map .byte := by
      rw [event?, if_pos now]
      cases (bytes (lastRun past ++ [l]))[(bytes (lastRun past)).length]? <;> rfl
    rw [lastRun_selected past now, List.append_assoc, bytes_concat (lastRun past) l, List.map_append] at rest
    rw [eventsAfter, ← List.singleton_append (l := eventsAfter _ _), List.reduceOption_append, event,
      ← List.append_assoc, ← rest]
    rfl

/-- **The events of a maximal run are its bytes, and then one release.** -/
theorem events_run {before run : Waveform} {l : Levels} (start : lastRun before = [])
    (selected : ∀ x ∈ run, x.selected = true) (nonempty : run ≠ []) (released : l.selected = false) :
    (eventsAfter before (run ++ [l])).reduceOption = (bytes run).map .byte ++ [.release] := by
  have whole := events_selected before selected
  have ended : event? (before ++ run) l = some .release := by
    rw [event?, lastRun_append before selected, start, List.nil_append, if_neg (by simp [released]), if_neg nonempty]
  rw [start] at whole
  rw [eventsAfter_append, List.reduceOption_append, eventsAfter, ended]
  simpa [eventsAfter, bytes, risingBits, packed] using whole.symm

end Waveform

end EtherChip
