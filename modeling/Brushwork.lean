import Brushwork.Canvas.Basic
import Brushwork.Canvas.Flood
import Brushwork.Check.Analysis
import Brushwork.Check.Complaint
import Brushwork.Check.Typing
import Brushwork.Color.Call
import Brushwork.Color.Palette
import Brushwork.Color.Register
import Brushwork.Color.Swatch
import Brushwork.CommandLine.Argument
import Brushwork.CommandLine.Draw
import Brushwork.CommandLine.Listing
import Brushwork.CommandLine.Output
import Brushwork.Editor.Application
import Brushwork.Editor.CanvasView
import Brushwork.Editor.Diagnostic
import Brushwork.Editor.Highlight
import Brushwork.Editor.Layout
import Brushwork.Editor.Setting
import Brushwork.Editor.Theme
import Brushwork.Editor.Window
import Brushwork.File.Folder
import Brushwork.File.Path
import Brushwork.File.Text
import Brushwork.Grammar.Expression
import Brushwork.Grammar.Parse
import Brushwork.Grammar.Problem
import Brushwork.Grammar.Reader
import Brushwork.Grammar.Reading
import Brushwork.Grammar.Statement
import Brushwork.Literal
import Brushwork.Machine.Depth
import Brushwork.Machine.Easel
import Brushwork.Machine.Effect
import Brushwork.Machine.Eval
import Brushwork.Machine.Fault
import Brushwork.Machine.Host
import Brushwork.Machine.Run
import Brushwork.Main
import Brushwork.Number.Binary64
import Brushwork.Number.Checksum
import Brushwork.Proofs.Canvas.Crop
import Brushwork.Proofs.Canvas.Flooding
import Brushwork.Proofs.Canvas.Shape
import Brushwork.Proofs.Check.Acceptance
import Brushwork.Proofs.Check.Verdict
import Brushwork.Proofs.Color.Interning
import Brushwork.Proofs.Color.Register
import Brushwork.Proofs.Editor.FileFailure
import Brushwork.Proofs.Editor.Highlighting
import Brushwork.Proofs.Editor.InStep
import Brushwork.Proofs.Grammar.Alike
import Brushwork.Proofs.Grammar.Clean
import Brushwork.Proofs.Grammar.Closing
import Brushwork.Proofs.Grammar.Complete
import Brushwork.Proofs.Grammar.Depth
import Brushwork.Proofs.Grammar.Labels
import Brushwork.Proofs.Grammar.Lines
import Brushwork.Proofs.Grammar.Noting
import Brushwork.Proofs.Grammar.Origin
import Brushwork.Proofs.Grammar.Precedence
import Brushwork.Proofs.Grammar.Recovery
import Brushwork.Proofs.Grammar.Stopping
import Brushwork.Proofs.Grammar.Yield
import Brushwork.Proofs.Machine.Assigned
import Brushwork.Proofs.Machine.Atomic
import Brushwork.Proofs.Machine.Clipping
import Brushwork.Proofs.Machine.Drawing
import Brushwork.Proofs.Machine.Faults
import Brushwork.Proofs.Machine.Hosts
import Brushwork.Proofs.Machine.Image
import Brushwork.Proofs.Machine.Limit
import Brushwork.Proofs.Machine.Nesting
import Brushwork.Proofs.Machine.Queries
import Brushwork.Proofs.Machine.Recolor
import Brushwork.Proofs.Machine.Session
import Brushwork.Proofs.Machine.Stepping
import Brushwork.Proofs.Machine.Truth
import Brushwork.Proofs.Machine.Values
import Brushwork.Proofs.Printing.Print
import Brushwork.Proofs.Printing.RoundTrip
import Brushwork.Proofs.Printing.Scanning
import Brushwork.Proofs.Printing.Spelling
import Brushwork.Proofs.Report.Bounds
import Brushwork.Proofs.Report.Escapes
import Brushwork.Proofs.Report.Pointing
import Brushwork.Proofs.Report.Stages
import Brushwork.Proofs.Syntax.Part
import Brushwork.Proofs.Token.Context
import Brushwork.Proofs.Token.Places
import Brushwork.Proofs.Token.Tiling
import Brushwork.Report
import Brushwork.Syntax.Expr
import Brushwork.Syntax.Op
import Brushwork.Syntax.Record
import Brushwork.Syntax.Stmt
import Brushwork.Table
import Brushwork.Text.Blank
import Brushwork.Text.Digit
import Brushwork.Text.Line
import Brushwork.Text.Numeral
import Brushwork.Text.Position
import Brushwork.Text.Printable
import Brushwork.Text.Quoted
import Brushwork.Token.Basic
import Brushwork.Token.Kind
import Brushwork.Token.Scan
import Brushwork.Token.Segment
