import MoteCapture.Main
import MoteCapture.Proofs.CommandLine.Warning
import MoteCapture.Proofs.Options.Load
import MoteCapture.Proofs.Options.Motes
import MoteCapture.Proofs.Recorder.Reopening
import MoteCapture.Proofs.Session.Reference
import MoteCapture.Proofs.Session.Retry
import MoteCapture.Proofs.Stop.Handles
