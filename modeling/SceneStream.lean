import SceneStream.Session.Command
import SceneStream.Proofs.Structure.RoundTrip
import SceneStream.Proofs.Writer.Finite
import SceneStream.Proofs.Writer.Lifecycle
import SceneStream.Proofs.Writer.Value
import SceneStream.Proofs.Session.Correspondence
import SceneStream.Proofs.Session.Refusal
import SceneStream.Proofs.Outline.Drawing
import SceneStream.Proofs.Session.Locality
import SceneStream.Proofs.Session.Leaving
import SceneStream.Proofs.Session.Completion
import SceneStream.Proofs.Comparison.Basic
import SceneStream.Proofs.Comparison.Writer
import SceneStream.Proofs.Session.Arguments
import SceneStream.Proofs.Comparison.Session
import SceneStream.Proofs.Comparison.Command
import SceneStream.Proofs.Sink
import SceneStream.Proofs.Comparison.Truncation
import SceneStream.Proofs.Comparison.Validity
import SceneStream.Proofs.Session.Turn
import SceneStream.Proofs.Session.Openings
import SceneStream.Proofs.Session.Exclusion
import SceneStream.Proofs.Session.History
import SceneStream.Proofs.Session.Legality
import SceneStream.Proofs.Binary.Rounding
import SceneStream.Proofs.Reference.RoundTrip
import SceneStream.Proofs.Time.Elapsed
import SceneStream.Proofs.Series.Times
import SceneStream.Proofs.Comparison.Layout
import SceneStream.Proofs.Structure.Spelling
import SceneStream.Proofs.Structure.Viability
import SceneStream.Proofs.Json.Refusing
import SceneStream.Proofs.Comparison.Alone
import SceneStream.Proofs.Session.Advance
import SceneStream.Proofs.Session.Finishing
import SceneStream.Proofs.Session.FirstPacket
import SceneStream.Proofs.Json.Null
import SceneStream.Proofs.Session.Nullless
import SceneStream.Proofs.Time.Calendar
import SceneStream.Proofs.Time.Reading
import SceneStream.Proofs.Json.Members
import SceneStream.Proofs.Settings
import SceneStream.Proofs.Series.Array
import SceneStream.Proofs.Series.Window
import SceneStream.Proofs.Reference.Grammar
import SceneStream.Proofs.Session.ChildWrites
import SceneStream.Proofs.Session.MemberNames
import SceneStream.Proofs.Session.Retrying
import SceneStream.Proofs.Session.Places
import SceneStream.Proofs.Session.Afresh
import SceneStream.Proofs.Writer.Turns
import SceneStream.Proofs.Series.Slicing
import SceneStream.Proofs.Session.Conforming
import SceneStream.Proofs.Outline.Conforming
import SceneStream.Proofs.Session.Enclosing
