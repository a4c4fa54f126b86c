import PointIPad.Lib.OrderedMap
import PointIPad.Orders
import PointIPad.OrderStore
import PointIPad.ModifierVisits
import PointIPad.QuickServe
import PointIPad.Menu
import PointIPad.Selection
import PointIPad.OrderOperation
import PointIPad.Tables
import PointIPad.TableIsolation
import PointIPad.Resume
import PointIPad.TimeClock
import PointIPad.Payroll
import PointIPad.ClockOutcome
import PointIPad.LoginSession
import PointIPad.Bill
import PointIPad.OrderHistory
import PointIPad.BillLabels
import PointIPad.Payment
import PointIPad.Lib.SqlText
import PointIPad.SqlNames
import PointIPad.Steppers
import PointIPad.StoredNames
import PointIPad.ModifierOptions
import PointIPad.MenuBack
import PointIPad.ModifierStrings
import PointIPad.ItemProperties
import PointIPad.TapOutside
import PointIPad.StoredModifiers
import PointIPad.BillChanges
import PointIPad.Toppings
import PointIPad.OrderCells
import PointIPad.RecordsetMoves
import PointIPad.Conninfo
import PointIPad.ConnectionLife
import PointIPad.Bytea
import PointIPad.LoginDialogue
import PointIPad.QuerySession
