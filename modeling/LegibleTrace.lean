import LegibleTrace.Host.View
import LegibleTrace.Legend
import LegibleTrace.Log.Call
import LegibleTrace.Log.Standard
import LegibleTrace.QualifiedName
import LegibleTrace.Settings.Load
import LegibleTrace.Trace.Trim
import LegibleTrace.Proofs.Cause.FullName
import LegibleTrace.Proofs.Cause.Report
import LegibleTrace.Proofs.Cause.Trimming
import LegibleTrace.Proofs.Cause.TwoWalks
import LegibleTrace.Proofs.Environment.Substitution
import LegibleTrace.Proofs.Host.Message
import LegibleTrace.Proofs.Legend
import LegibleTrace.Proofs.Log.KeptFormat
import LegibleTrace.Proofs.Mangled.Contexts
import LegibleTrace.Proofs.Mangled.Digits
import LegibleTrace.Proofs.Mangled.Length
import LegibleTrace.Proofs.Mangled.LongestMatch
import LegibleTrace.Proofs.Mangled.Procedure
import LegibleTrace.Proofs.Mangled.Settled
import LegibleTrace.Proofs.Mangled.Specialized
import LegibleTrace.Proofs.QualifiedName.Composition
import LegibleTrace.Proofs.QualifiedName.Shown
import LegibleTrace.Proofs.Settings.Assembler
import LegibleTrace.Proofs.Settings.Preference
import LegibleTrace.Proofs.Settings.Shape
import LegibleTrace.Proofs.Trace.Crop
import LegibleTrace.Proofs.Trace.Ends
import LegibleTrace.Proofs.Trace.Trim
