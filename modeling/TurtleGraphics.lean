import TurtleGraphics.Json.Session
import TurtleGraphics.Main
import TurtleGraphics.Proofs.Session.Reload
import TurtleGraphics.Proofs.Session.SamePath
import TurtleGraphics.Proofs.Session.Snapshots
import TurtleGraphics.Proofs.Session.Unsaved
import TurtleGraphics.Proofs.Script.LineFeeds
import TurtleGraphics.Proofs.Session.SavedLines
import TurtleGraphics.Proofs.Drawing.Inside
import TurtleGraphics.Proofs.Session.Inside
import TurtleGraphics.Proofs.Command.Validation
import TurtleGraphics.Proofs.Console.Answers
import TurtleGraphics.Proofs.Command.Paths
import TurtleGraphics.Proofs.Console.Output
import TurtleGraphics.Proofs.Console.TypedLines
import TurtleGraphics.Proofs.Console.Messages
import TurtleGraphics.Proofs.Console.Turns
import TurtleGraphics.Proofs.Session.Proper
import TurtleGraphics.Proofs.Command.Language
import TurtleGraphics.Proofs.Command.Tokenizing
import TurtleGraphics.Proofs.Script.Accounting
import TurtleGraphics.Proofs.Session.Spelling
import TurtleGraphics.Proofs.Script.LineByLine
import TurtleGraphics.Proofs.History.TakingBack
import TurtleGraphics.Proofs.History.Reloading
import TurtleGraphics.Proofs.Scalar.WholeNumbers
import TurtleGraphics.Proofs.Session.Turning
import TurtleGraphics.Proofs.Geometry.Exact
import TurtleGraphics.Proofs.Geometry.Triangles
import TurtleGraphics.Proofs.Geometry.Closing
import TurtleGraphics.Proofs.Json.Forms
import TurtleGraphics.Proofs.Drawing.Operations
import TurtleGraphics.Proofs.Geometry.Iteration
