import BootKeyboard.Descriptor.Decode
import BootKeyboard.HeldKeys.Edit
import BootKeyboard.KeyEvent.Text
import BootKeyboard.Proofs.Descriptor.Meaning
import BootKeyboard.Proofs.HeldKeys.Sets
import BootKeyboard.Proofs.Keyboard.Access
import BootKeyboard.Proofs.Keyboard.Frame
import BootKeyboard.Proofs.Keyboard.Moves
import BootKeyboard.Proofs.Keyboard.Reports
import BootKeyboard.Proofs.Mods.Words
import BootKeyboard.Proofs.Report.Distinction
import BootKeyboard.Proofs.Report.RoundTrip
import BootKeyboard.Proofs.Session.Handles
import BootKeyboard.Proofs.Session.Independence
import BootKeyboard.Proofs.Session.Lifecycle
import BootKeyboard.Proofs.Session.Refusals
import BootKeyboard.Report.Text
import BootKeyboard.Transcript
