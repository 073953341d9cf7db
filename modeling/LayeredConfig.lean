import LayeredConfig.Main
import LayeredConfig.Proofs.Coercion.Choice
import LayeredConfig.Proofs.Coercion.Culprit
import LayeredConfig.Proofs.Coercion.Display
import LayeredConfig.Proofs.Coercion.Integers
import LayeredConfig.Proofs.Declarations
import LayeredConfig.Proofs.Diagnosis
import LayeredConfig.Proofs.Expression.Binding
import LayeredConfig.Proofs.InTurn
import LayeredConfig.Proofs.Independence
import LayeredConfig.Proofs.KeyLines
import LayeredConfig.Proofs.Layer.Overrides
import LayeredConfig.Proofs.Layer.Variables
import LayeredConfig.Proofs.Placement
import LayeredConfig.Proofs.Reports
import LayeredConfig.Proofs.SettingTable
import LayeredConfig.Proofs.Shadowing
import LayeredConfig.Proofs.Template.Defaults
import LayeredConfig.Proofs.TypeName.Resolution
import LayeredConfig.Proofs.TypeName.RuleOrder
import LayeredConfig.Proofs.UnknownKeys
import LayeredConfig.Value.Reader
