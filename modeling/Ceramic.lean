import Ceramic.Program
import Ceramic.Json
import Ceramic.AdminCodes
import Ceramic.IndexTables
import Ceramic.IndexApi
import Ceramic.IndexRuns
import Ceramic.AdminApi
import Ceramic.JsonParse
import Ceramic.QueryObject
import Ceramic.IndexInterleavings
