import LiterateEdit.Main
import LiterateEdit.Script
import LiterateEdit.Proofs.Text.Slice
import LiterateEdit.Proofs.Text.Utf8
import LiterateEdit.Proofs.Buffer.Accepted
import LiterateEdit.Proofs.Buffer.Change
import LiterateEdit.Proofs.Buffer.Rename
import LiterateEdit.Proofs.Context.Layout
import LiterateEdit.Proofs.Context.Strip
import LiterateEdit.Proofs.Context.Refinement
import LiterateEdit.Proofs.Context.Narrowed
import LiterateEdit.Proofs.Context.Row
import LiterateEdit.Proofs.Context.Seams
import LiterateEdit.Proofs.Context.InOrder
import LiterateEdit.Proofs.Context.Rename
import LiterateEdit.Proofs.Context.Fault
import LiterateEdit.Proofs.Script.Run
import LiterateEdit.Proofs.Script.Change
import LiterateEdit.Proofs.Script.Rollback
import LiterateEdit.Proofs.Script.Protected
import LiterateEdit.Proofs.Script.Rename
import LiterateEdit.Proofs.Script.Fault
import LiterateEdit.Proofs.Script.Taken
import LiterateEdit.Proofs.Script.WellFormed
import LiterateEdit.Proofs.Script.Refused
import LiterateEdit.Proofs.Context.Undone
import LiterateEdit.Proofs.Context.Clip
import LiterateEdit.Proofs.Script.Replaced
import LiterateEdit.Proofs.Script.Unspliced
import LiterateEdit.Proofs.Script.Uncrossed
import LiterateEdit.Proofs.Script.Inserted
import LiterateEdit.Proofs.Script.Segments
import LiterateEdit.Proofs.Context.Resolve
import LiterateEdit.Proofs.Context.Select
import LiterateEdit.Proofs.Block.Spelled
import LiterateEdit.Proofs.Block.Defaults
import LiterateEdit.Proofs.Session.Enter
import LiterateEdit.Proofs.Session.Lifecycle
import LiterateEdit.Proofs.Session.Hosted
import LiterateEdit.Proofs.Document.RoundTrip
import LiterateEdit.Proofs.Document.OwnText
import LiterateEdit.Proofs.Document.ReadBack
import LiterateEdit.Proofs.Document.KeptFront
import LiterateEdit.Proofs.Document.Around
import LiterateEdit.Proofs.Document.LastWrite
import LiterateEdit.Proofs.FileSystem.Change
import LiterateEdit.Proofs.FileSystem.Tree
import LiterateEdit.Proofs.Tangle.Place
import LiterateEdit.Proofs.Tangle.Files
import LiterateEdit.Proofs.CommandLine.Action
import LiterateEdit.Proofs.CommandLine.Edit
import LiterateEdit.Proofs.Client.Books
import LiterateEdit.Proofs.Session.Connect
import LiterateEdit.Proofs.Session.File
import LiterateEdit.Proofs.Settings.Sources
import LiterateEdit.Proofs.Settings.Reported
import LiterateEdit.Proofs.Diff.Unified
