import IoWatch.Dashboard.Frame
import IoWatch.Storage.Fault

/-!
# The dashboard loop

The loop draws a frame, waits for an event, and ticks when the refresh period has passed. The keys
`q` and `c` end it, and so do a failure of waiting and an abort of a tick. It is driven by a script
of what happens while it waits and of how long that takes; a script that runs out presses `q`.

## Main definitions

* `Happening`, `Moment`: what waiting can end with, and what else happens meanwhile
* `Turn`: a moment of waiting with its time
* `Ending`: how the loop ends
* `Dashboard.play`: the screens that the loop shows, and its ending
* `Dashboard.loop`: the same if the refresh period has passed after every moment, or after none
-/

namespace IoWatch

/-- What waiting for an event can end with. -/
inductive Happening where
  /-- No event comes before the refresh period has passed. -/
  | nothing
  /-- A key for a character is pressed. -/
  | key (c : Char)
  /-- Another event comes: another key, a new size, a change of focus. -/
  | otherEvent
  | failure (fault : Fault)
  deriving DecidableEq

/-- What happens while the loop waits: samples come in, and then waiting ends. -/
structure Moment where
  samples : List Sample
  happening : Happening
  deriving DecidableEq

/-- A turn of the loop: what happens while it waits, and the time when waiting has ended. -/
structure Turn where
  moment : Moment
  /-- Milliseconds since the last tick. -/
  sinceTickMs : Nat
  /-- The time of day. -/
  now : ClockTime
  deriving DecidableEq

/-- How the loop ends. -/
inductive Ending where
  | quit
  | failed (fault : Fault)
  | aborted (reason : Abort)
  deriving DecidableEq

/-- Whether a key ends the loop. -/
def isQuitKey (c : Char) : Bool := c = 'q' || c = 'c'

/-- The ending that a happening brings, if it brings one. -/
def Happening.ending? : Happening → Option Ending
  | nothing => none
  | key c => if isQuitKey c then some .quit else none
  | otherEvent => none
  | failure fault => some (.failed fault)

namespace Dashboard

/-- The frames that the loop shows and its ending. It ticks behind every turn after which the
refresh period has passed. -/
def play (width height refreshMs : Nat) : Dashboard → Usage → List Turn → List Screen × Ending
  | d, _, [] => ([d.frame width height], .quit)
  | d, usage, turn :: rest =>
    let screen := d.frame width height
    let usage := usage.updateAll turn.moment.samples
    match turn.moment.happening.ending? with
    | some ending => ([screen], ending)
    | none =>
      if refreshMs ≤ turn.sinceTickMs then
        match d.tick usage turn.now with
        | (d, .ok ()) =>
          let (screens, ending) := play width height refreshMs d usage rest
          (screen :: screens, ending)
        | (_, .error reason) => ([screen], .aborted reason)
      else
        let (screens, ending) := play width height refreshMs d usage rest
        (screen :: screens, ending)

/-- The frames that the loop shows and its ending, where no time passes while it waits. If `ticking`,
there is no refresh period to wait for, so it ticks behind every moment; else it never does. -/
def loop (width height : Nat) (ticking : Bool) (now : ClockTime) (d : Dashboard) (usage : Usage)
    (moments : List Moment) : List Screen × Ending :=
  d.play width height (if ticking then 0 else 1) usage (moments.map (⟨·, 0, now⟩))

end Dashboard

end IoWatch
