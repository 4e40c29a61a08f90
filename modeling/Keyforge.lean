import Keyforge.Export
import Keyforge.Main
import Keyforge.Proofs.Board.Cache
import Keyforge.Proofs.Build.Cancellation
import Keyforge.Proofs.Build.Start
import Keyforge.Proofs.Datum.Merge
import Keyforge.Proofs.Document.Grid
import Keyforge.Proofs.Document.Turns
import Keyforge.Proofs.Firmware.Actions
import Keyforge.Proofs.Firmware.KeyOrder
import Keyforge.Proofs.Firmware.LightCount
import Keyforge.Proofs.Firmware.Placed
import Keyforge.Proofs.Firmware.Renaming
import Keyforge.Proofs.Header.Deprecated
import Keyforge.Proofs.Layout.Category
import Keyforge.Proofs.Layout.New
import Keyforge.Proofs.Layout.Desk
import Keyforge.Proofs.Layout.Slots
