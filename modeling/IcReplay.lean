import IcReplay.Types
import IcReplay.Run
import IcReplay.Changelog
import IcReplay.Player
import IcReplay.Contract
import IcReplay.Checks
import IcReplay.Log
import IcReplay.Round
import IcReplay.Purge
import IcReplay.Verify
import IcReplay.LocalStore
import IcReplay.Errors
import IcReplay.Target
import IcReplay.Extra
import IcReplay.ReplayLog
import IcReplay.Progress
import IcReplay.Termination
import IcReplay.CupOrder
