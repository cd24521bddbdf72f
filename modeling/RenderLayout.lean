import RenderLayout.Main
import RenderLayout.Proofs.FloatNaN
import RenderLayout.Proofs.StyleEquality
import RenderLayout.Proofs.Tables
import RenderLayout.Proofs.Unify
import RenderLayout.Proofs.Names
import RenderLayout.Proofs.Translation
import RenderLayout.Proofs.Cascade
import RenderLayout.Proofs.ComponentStyle
import RenderLayout.Proofs.Acceptance
import RenderLayout.Proofs.References
import RenderLayout.Proofs.SingleSpan
import RenderLayout.Proofs.Rounding
import RenderLayout.Proofs.DecimalText
import RenderLayout.Proofs.WrittenTags
import RenderLayout.Proofs.ElementMarkup
import RenderLayout.Proofs.DrawingMarkup
import RenderLayout.Proofs.Loading
import RenderLayout.Proofs.Runs
import RenderLayout.Proofs.ScanParts
import RenderLayout.Proofs.Respelling
import RenderLayout.Proofs.BareDrawing
import RenderLayout.Proofs.EmptyElements
import RenderLayout.Proofs.JsonNull
import RenderLayout.Proofs.LayoutNumbers
import RenderLayout.Proofs.FiniteNumbers
import RenderLayout.Proofs.PageComponents
import RenderLayout.Proofs.ClassStyles
import RenderLayout.Proofs.RenamedKeys
import RenderLayout.Proofs.PageNames
import RenderLayout.Proofs.NodeLists
import RenderLayout.Proofs.Regions
import RenderLayout.Proofs.Pieces
import RenderLayout.Proofs.Padding
import RenderLayout.Proofs.PageFrame
import RenderLayout.Proofs.TextFonts
import RenderLayout.Proofs.OwnDeclarations
import RenderLayout.Proofs.DeclarationOrder
import RenderLayout.Proofs.BindingLines
import RenderLayout.Proofs.SheetRules
import RenderLayout.Proofs.Numerals
import RenderLayout.Proofs.DeclarationReading
import RenderLayout.Proofs.FloatArithmetic
import RenderLayout.Proofs.RoundedNumbers
import RenderLayout.Proofs.NumberTexts
import RenderLayout.Proofs.FontRequests
import RenderLayout.Proofs.FontSessions
import RenderLayout.Proofs.LikeTags
import RenderLayout.Proofs.AttributeOrder
import RenderLayout.Proofs.CornerRadii
import RenderLayout.Proofs.BoundProperties
import RenderLayout.Proofs.NearestFloats
import RenderLayout.Proofs.Thousandths
import RenderLayout.Proofs.ColorTexts
import RenderLayout.Proofs.ColorRanges
import RenderLayout.Proofs.JsonSyntax
import RenderLayout.Proofs.JsonLiterals
import RenderLayout.Proofs.JsonReading
import RenderLayout.Proofs.JsonAccepted
import RenderLayout.Proofs.JsonUnambiguous
import RenderLayout.Proofs.JsonWriting
import RenderLayout.Proofs.CanonicalText
