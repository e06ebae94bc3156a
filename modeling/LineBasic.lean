import LineBasic.Main
import LineBasic.Proofs.Appending
import LineBasic.Proofs.Array.Bounds
import LineBasic.Proofs.Array.Closing
import LineBasic.Proofs.Array.History
import LineBasic.Proofs.Array.Nested
import LineBasic.Proofs.Assignment
import LineBasic.Proofs.Compound
import LineBasic.Proofs.Constants
import LineBasic.Proofs.DataStream
import LineBasic.Proofs.Dialogue
import LineBasic.Proofs.Editing
import LineBasic.Proofs.EntryOrder
import LineBasic.Proofs.Formula.Readable
import LineBasic.Proofs.Kinds
import LineBasic.Proofs.LineEditor
import LineBasic.Proofs.ListRange
import LineBasic.Proofs.Loop.Run
import LineBasic.Proofs.NotEqual
import LineBasic.Proofs.Pieces
import LineBasic.Proofs.Recall
import LineBasic.Proofs.Recasing
import LineBasic.Proofs.Refill
import LineBasic.Proofs.Restoring
import LineBasic.Proofs.ReturnStack
import LineBasic.Proofs.ScriptCheck
import LineBasic.Proofs.Search
import LineBasic.Proofs.Separation
import LineBasic.Proofs.Split.Run
import LineBasic.Proofs.Storage
import LineBasic.Proofs.Stores
import LineBasic.Proofs.UnaryMinus
import LineBasic.Proofs.VariableList
import LineBasic.Proofs.WhiteSpace
import LineBasic.Session
import LineBasic.Workload.Conversations
import LineBasic.Workload.Lexing
import LineBasic.Workload.Programs
import LineBasic.Workload.Screens
import LineBasic.Workload.SelfTest
import LineBasic.Workload.Statements
