import Recipients.CommandLine.Options
import Recipients.CommandLine.Run
import Recipients.Inspector
import Recipients.Main
import Recipients.Notification.Calls
import Recipients.Proofs.Policy.Delegation
import Recipients.Proofs.Policy.PostOrder
import Recipients.Proofs.Policy.Redirection
import Recipients.Proofs.OrderedMap
import Recipients.Proofs.Path.Remembered
import Recipients.Proofs.Graph.TextForm
import Recipients.Proofs.Receivers.Merging
import Recipients.Proofs.Document.Pointers
import Recipients.Proofs.Document.PointerText
import Recipients.Proofs.Document.TreeWalk
import Recipients.Proofs.Document.PlainWalk
import Recipients.Proofs.Policy.CycleSearch
import Recipients.Proofs.Policy.Registration
import Recipients.Proofs.Policy.Ending
import Recipients.Proofs.Policy.Ownership
import Recipients.Proofs.Policy.Relinking
import Recipients.Proofs.Notification.Runs
import Recipients.Proofs.Json.Layout
import Recipients.Proofs.Json.NumberText
import Recipients.Proofs.Json.ValueText
import Recipients.Proofs.Notification.ConfigText
import Recipients.Proofs.Notification.MessageText
import Recipients.Proofs.Notification.Prepared
import Recipients.Proofs.Document.Bisimulation
import Recipients.Proofs.Document.Spelling
import Recipients.Proofs.Document.Inlining
import Recipients.Proofs.CommandLine.Modes
import Recipients.Proofs.CommandLine.Sending
import Recipients.Proofs.Document.Records
import Recipients.Proofs.Getter.Consulting
import Recipients.Proofs.Getter.EditHistory
import Recipients.Proofs.Path.Bystander
import Recipients.Proofs.Path.Tables
import Recipients.Proofs.Document.Handles
import Recipients.Proofs.Path.Composition
import Recipients.Proofs.Path.Loads
import Recipients.Proofs.Path.Grammar
import Recipients.Proofs.Receivers.Stability
import Recipients.Proofs.CamelCase
import Recipients.Proofs.Graph.Spellings
import Recipients.Proofs.Notification.Repetition
