import Intake.Service
import Intake.Proofs.EventLog.Writes
import Intake.Proofs.Sorting
import Intake.Proofs.Dispatch.Course
import Intake.Proofs.Dispatch.Abort
import Intake.Proofs.EventLog.Reading
import Intake.Proofs.Lists
import Intake.Proofs.Status.Summary
import Intake.Proofs.Status.Locality
import Intake.Proofs.Status.Permutation
import Intake.Proofs.EventLog.Separation
import Intake.Proofs.EventLog.Transparency
import Intake.Proofs.EventLog.Chronology
import Intake.Proofs.EventLog.Atomicity
import Intake.Proofs.Dispatch.News
import Intake.Proofs.Status.News
import Intake.Proofs.Status.Reports
import Intake.Proofs.Dispatch.Solo
import Intake.Proofs.Dispatch.Session
import Intake.Proofs.Dispatch.Pairing
import Intake.Proofs.Extractor.Frames
import Intake.Proofs.Extractor.Image
import Intake.Proofs.Extractor.Pdf
import Intake.Proofs.Extractor.Delivery
import Intake.Proofs.Extractor.Lenience
import Intake.Proofs.Overlay.Fallback
import Intake.Proofs.Dispatch.Undisturbed
import Intake.Proofs.EventLog.Prefix
import Intake.Proofs.Status.Scopes
import Intake.Proofs.Extractor.Retelling
import Intake.Proofs.Extractor.BestEffort
import Intake.Proofs.EventLog.Surfacing
import Intake.Proofs.Dispatch.Unobserved
import Intake.Proofs.Status.Legibility
import Intake.Proofs.Status.Repetition
import Intake.Proofs.EventLog.Growth
import Intake.Proofs.Dispatch.Redelivery
import Intake.Proofs.Status.Histories
import Intake.Proofs.Status.Extension
import Intake.Proofs.Status.Shape
import Intake.Proofs.Extractor.Stops
import Intake.Proofs.Text.Spelling
import Intake.Proofs.Text.Replacement
import Intake.Proofs.Text.Lines
import Intake.Proofs.Command.Endings
import Intake.Proofs.Command.Output
import Intake.Proofs.FilePath
import Intake.Proofs.Extractor.Scratch
import Intake.Proofs.Status.Places
import Intake.Proofs.Overlay.Copies
import Intake.Proofs.Extractor.IndexFaults
import Intake.Proofs.Transcript.Greedy
import Intake.Proofs.Transcript.Pacing
import Intake.Proofs.Extractor.Pacing
import Intake.Proofs.Dispatch.Registration
import Intake.Proofs.Extractor.Storage
