import MiniLisp.Main
import MiniLisp.NamePool
import MiniLisp.Value.Fingerprint
import MiniLisp.Proofs.Value.Parts
import MiniLisp.Proofs.Value.Components
import MiniLisp.Proofs.Value.TotalOrder
import MiniLisp.Proofs.Value.AscendingEntries
import MiniLisp.Proofs.Value.KeptEntries
import MiniLisp.Proofs.Value.Texts
import MiniLisp.Proofs.Value.Printable
import MiniLisp.Proofs.Value.Quotable
import MiniLisp.Proofs.Token.Quotation
import MiniLisp.Proofs.Token.Extension
import MiniLisp.Proofs.Token.Relocation
import MiniLisp.Proofs.Form.Atom
import MiniLisp.Proofs.Form.Machine
import MiniLisp.Proofs.Form.Completion
import MiniLisp.Proofs.Form.Spelling
import MiniLisp.Proofs.Form.RoundTrip
import MiniLisp.Proofs.Form.Programs
import MiniLisp.Proofs.Form.Relocation
import MiniLisp.Proofs.Form.Joined
import MiniLisp.Proofs.Builtin.Yields
import MiniLisp.Proofs.Builtin.Faults
import MiniLisp.Proofs.Eval.MapForms
import MiniLisp.Proofs.Eval.Frames
import MiniLisp.Proofs.Eval.Effects
import MiniLisp.Proofs.Eval.Invariant
import MiniLisp.Proofs.Eval.Alike
import MiniLisp.Proofs.Eval.Correspondence
import MiniLisp.Proofs.Builtin.Agreement
import MiniLisp.Proofs.Eval.Parameters
import MiniLisp.Proofs.Eval.Simulation
import MiniLisp.Proofs.Eval.Reachable
import MiniLisp.Proofs.Eval.Programs
import MiniLisp.Proofs.Eval.CleanSessions
import MiniLisp.Proofs.Eval.CommonPast
import MiniLisp.Proofs.Eval.LocalDefinitions
import MiniLisp.Proofs.Eval.Renaming
import MiniLisp.Proofs.Eval.Repetition
import MiniLisp.Proofs.Eval.ReadableResults
import MiniLisp.Proofs.Eval.OneName
import MiniLisp.Proofs.Eval.UnmentionedNames
import MiniLisp.Proofs.Eval.Mirror
import MiniLisp.Proofs.Eval.SharedStore
import MiniLisp.Proofs.Eval.Isolation
import MiniLisp.Proofs.Eval.Layout
import MiniLisp.Proofs.Eval.Depth
import MiniLisp.Proofs.Eval.Failures
import MiniLisp.Proofs.Prompt.IdleLines
import MiniLisp.Proofs.Form.OnePass
import MiniLisp.Proofs.Token.Division
import MiniLisp.Proofs.Token.Joined
import MiniLisp.Proofs.Form.StringEnds
import MiniLisp.Proofs.Value.Trees
import MiniLisp.Proofs.Builtin.Arithmetic
import MiniLisp.Proofs.Eval.ParameterLists
import MiniLisp.Proofs.Eval.FreshScope
import MiniLisp.Proofs.Eval.Closures
import MiniLisp.Proofs.Value.Fingerprints
import MiniLisp.Proofs.Form.BuiltMaps
import MiniLisp.Proofs.Text.Escapes
import MiniLisp.Proofs.Builtin.Printing
import MiniLisp.Proofs.Builtin.Comparisons
import MiniLisp.Proofs.Store.Forest
import MiniLisp.Proofs.Eval.WithoutClosures
import MiniLisp.Proofs.Form.Locality
import MiniLisp.Proofs.NamePool.Sharing
import MiniLisp.Proofs.Eval.Translation
