import Zlint.Base
import Zlint.ResultSet
import Zlint.Registry
import Zlint.Filter
import Zlint.Engine
import Zlint.Concurrent
import Zlint.Command
import Zlint.Bench
import Zlint.Main
import Zlint.NamesSlice
