import IoWatch.Main
import IoWatch.Proofs.Broadcast
import IoWatch.Proofs.Delivery
import IoWatch.Proofs.Stopping
import IoWatch.Proofs.Logbook
import IoWatch.Proofs.TickReport
import IoWatch.Proofs.Accounting
import IoWatch.Proofs.JsonStream
import IoWatch.Proofs.Threads
import IoWatch.Proofs.ThreadEnds
import IoWatch.Proofs.Locking
import IoWatch.Proofs.Deadlock
import IoWatch.Proofs.Alone
import IoWatch.Proofs.Overlap
import IoWatch.Proofs.Silence
import IoWatch.Proofs.LastTwo
import IoWatch.Proofs.Utf8
import IoWatch.Proofs.Readings
import IoWatch.Proofs.NoOverflow
import IoWatch.Proofs.SharedWindow
import IoWatch.Proofs.NoLostUpdate
import IoWatch.Proofs.Watching
import IoWatch.Proofs.LoopScript
import IoWatch.Proofs.SlidingHistory
import IoWatch.Proofs.SettingsFile
import IoWatch.Proofs.Layering
import IoWatch.Proofs.AcceptedSettings
import IoWatch.Proofs.HistoryLength
import IoWatch.Proofs.Symmetry
import IoWatch.Proofs.Independence
import IoWatch.Proofs.RefusedStart
import IoWatch.Proofs.TextForms
import IoWatch.Proofs.CounterEntries
import IoWatch.Proofs.CountersFile
import IoWatch.Proofs.FirstFailure
import IoWatch.Proofs.LimitedSink
import IoWatch.Proofs.Magnitudes
import IoWatch.Proofs.SaneRates
import IoWatch.Proofs.ExactOverflow
import IoWatch.Proofs.FailedTick
import IoWatch.Proofs.Maxima
import IoWatch.Proofs.RunningPeak
import IoWatch.Proofs.JsonReader
import IoWatch.Proofs.LineReading
import IoWatch.Proofs.ShiftedSamples
import IoWatch.Proofs.DocumentTable
import IoWatch.Proofs.SettingsKeys
import IoWatch.Proofs.ExactNumbers
import IoWatch.Proofs.NumberText
import IoWatch.Proofs.ShownAmounts
import IoWatch.Proofs.ShownNumbers
import IoWatch.Proofs.ShownTotals
import IoWatch.Proofs.ShownRates
import IoWatch.Proofs.DrawnHistory
