import TimedText.Main
import TimedText.Log.Template
import TimedText.Proofs.Filter.Burned
import TimedText.Proofs.Render.Snapshot
import TimedText.Proofs.Session.Roll
import TimedText.Proofs.Studio.Output
import TimedText.Proofs.Encoder.LastLook
import TimedText.Proofs.Render.Course
import TimedText.Proofs.Render.Escape
import TimedText.Proofs.Render.Story
import TimedText.Proofs.Render.Report
import TimedText.Proofs.Disk.Contents
import TimedText.Proofs.Session.Steps
import TimedText.Proofs.Render.Arguments
import TimedText.Proofs.Session.Commit
import TimedText.Proofs.CommandLine.Output
import TimedText.Proofs.CommandLine.Request
import TimedText.Proofs.CommandLine.Render
import TimedText.Proofs.CommandLine.Agreement
import TimedText.Proofs.Filter.Quoted
import TimedText.Proofs.Settings.Precedence
import TimedText.Proofs.CommandLine.Duration
import TimedText.Proofs.CommandLine.Saved
import TimedText.Proofs.Encoder.Ending
import TimedText.Proofs.Encoder.Faults
import TimedText.Proofs.Disk.Refusal
import TimedText.Proofs.Sanitize
import TimedText.Proofs.Session.Times
import TimedText.Proofs.Encoder.TimeLimit
import TimedText.Proofs.Filter.Ordered
import TimedText.Proofs.Session.Built
import TimedText.Proofs.Render.Logging
import TimedText.Proofs.Render.Announcement
import TimedText.Proofs.Progress.Percent
import TimedText.Proofs.Settings.Document
import TimedText.Proofs.Render.Rows
import TimedText.Proofs.Filter.Escaped
import TimedText.Proofs.Session.Warning
import TimedText.Proofs.Session.Handover
import TimedText.Proofs.Cue.Option
