import SensorFusion.Lib.Machine
import SensorFusion.Lib.Framing
import SensorFusion.Lib.Dict
import SensorFusion.Lib.Except
import SensorFusion.Wire.Codec
import SensorFusion.Wire.Reader
import SensorFusion.Wire.Delivery
import SensorFusion.Python.Float
import SensorFusion.Python.Text
import SensorFusion.Python.Json
import SensorFusion.Lib.Proto
import SensorFusion.Sapient.Schema
import SensorFusion.Sapient.Validators
import SensorFusion.Sapient.Coverage
import SensorFusion.Flow.Run
import SensorFusion.Nodes.Config
import SensorFusion.Nodes.Handlers
import SensorFusion.Nodes.Registry
import SensorFusion.Nodes.Refinement
import SensorFusion.Nodes.Probes
import SensorFusion.Nodes.Rounds
import SensorFusion.Nodes.Consistency
import SensorFusion.Flow.Accounting
import SensorFusion.Lib.Queue
import SensorFusion.Flow.Matching
import SensorFusion.Python.Number
import SensorFusion.Gps.Nmea
import SensorFusion.Gps.Listener
import SensorFusion.Gps.Position
import SensorFusion.Gps.Freshness
import SensorFusion.Cot.Xml
import SensorFusion.Cot.Convert
import SensorFusion.Cot.Bridge
import SensorFusion.Cot.Place
import SensorFusion.Wire.Garbage
import SensorFusion.Flow.Sending
import SensorFusion.Flow.Returns
import SensorFusion.Gps.Attribution
import SensorFusion.Nodes.Save
import SensorFusion.Ui.NodesProxy
import SensorFusion.Ui.Transparency
import SensorFusion.Nodes.Judged
import SensorFusion.Lib.Editing
import SensorFusion.Ui.Targets
import SensorFusion.Ui.Template
import SensorFusion.Ui.Filled
import SensorFusion.Ui.Editor
import SensorFusion.Apex.Routing
import SensorFusion.Cot.Accounting
import SensorFusion.Nodes.History
import SensorFusion.Nodes.Isolation
import SensorFusion.Flow.Receiving
import SensorFusion.Ntp.Probe
import SensorFusion.Ntp.Vote
import SensorFusion.Regression.Runner
import SensorFusion.Lib.Files
import SensorFusion.Lib.FileOps
import SensorFusion.Lib.FileTrees
import SensorFusion.ProtoGen.Generate
import SensorFusion.ProtoGen.Atomic
import SensorFusion.Lib.Pieces
import SensorFusion.Ui.Rendering
import SensorFusion.Python.Lines
import SensorFusion.Gps.Isolation
import SensorFusion.Ui.Router
import SensorFusion.Lib.Median
import SensorFusion.Ntp.Robust
import SensorFusion.Ntp.Exchange
import SensorFusion.Nodes.Fields
import SensorFusion.Ui.EdgeState
import SensorFusion.Gps.Clock
import SensorFusion.Gps.Encoding
import SensorFusion.Gps.Globe
import SensorFusion.Python.Hex
import SensorFusion.Sapient.Identifiers
import SensorFusion.Lib.Xml
import SensorFusion.Lib.Markup
import SensorFusion.Cot.Documents
import SensorFusion.Nodes.Routes
import SensorFusion.Ui.Confinement
import SensorFusion.Gps.Gate
import SensorFusion.Ui.Reception
import SensorFusion.Ui.Sntp
import SensorFusion.Lib.JsonText
import SensorFusion.Ui.Substitution
import SensorFusion.Lib.Cutting
import SensorFusion.Apex.Streams
import SensorFusion.Apex.Sending
import SensorFusion.Apex.Forwarding
import SensorFusion.Apex.Replay
import SensorFusion.Lib.Table
import SensorFusion.Apex.Database
import SensorFusion.Apex.Saving
import SensorFusion.Apex.Serving
import SensorFusion.Lib.Sites
import SensorFusion.Apex.Validator
import SensorFusion.Apex.Coverage
import SensorFusion.Apex.Parsing
import SensorFusion.Apex.Intake
import SensorFusion.Python.Double
import SensorFusion.Ui.Eras
import SensorFusion.Nodes.Requests
