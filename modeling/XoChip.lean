import XoChip.Config
import XoChip.Dialect.Record
import XoChip.Dialect.Text
import XoChip.Disassembly
import XoChip.Machine.Summary
import XoChip.Main
import XoChip.Options
import XoChip.Scheduler
import XoChip.Snapshot.Record
import XoChip.Proofs.Run
import XoChip.Proofs.Keypad.History
import XoChip.Proofs.Display.Invariant
import XoChip.Proofs.Invariant
import XoChip.Proofs.Snapshot.Restore
import XoChip.Proofs.Access.Machine
import XoChip.Proofs.Alike
import XoChip.Proofs.Snapshot.Resume
import XoChip.Proofs.Json.RoundTrip
import XoChip.Proofs.Snapshot.Text
import XoChip.Proofs.Keypad.Vigil
import XoChip.Proofs.Instruction.Encoding
import XoChip.Proofs.Machine.Verdict
import XoChip.Proofs.Keypad.Stroke
import XoChip.Proofs.Machine.Halting
import XoChip.Proofs.Machine.KeyWait
import XoChip.Proofs.Machine.Calls
import XoChip.Proofs.Machine.Dialect
import XoChip.Proofs.Machine.Trace
import XoChip.Proofs.Machine.Batch
import XoChip.Proofs.Machine.Isolation
import XoChip.Proofs.Display.Drawing
import XoChip.Proofs.Machine.Sprite
import XoChip.Proofs.Machine.Progress
import XoChip.Proofs.Scheduler.History
import XoChip.Proofs.Scheduler.Custody
import XoChip.Proofs.Display.Scrolling
import XoChip.Proofs.Display.Selection
import XoChip.Proofs.Machine.Arithmetic
import XoChip.Proofs.Timer.Countdown
import XoChip.Proofs.Machine.Flow
import XoChip.Proofs.Machine.Transfer
import XoChip.Proofs.Sound.Rendering
import XoChip.Proofs.Sound.Playback
import XoChip.Proofs.Disassembly.Segmentation
import XoChip.Proofs.Text.Separator
import XoChip.Proofs.Instruction.Notation
import XoChip.Proofs.Disassembly.Listing
import XoChip.Proofs.Text.Trim
import XoChip.Proofs.Dialect.Grammar
import XoChip.Proofs.Dialect.Spelling
import XoChip.Proofs.Keypad.Held
import XoChip.Proofs.Display.Picture
import XoChip.Proofs.Machine.Stores
import XoChip.Proofs.Machine.Building
