import SharedTodos.Strangers
import SharedTodos.Authorization
import SharedTodos.SessionHistory
import SharedTodos.PasswordHistory
import SharedTodos.GoogleAccounts
import SharedTodos.OauthProtocol
import SharedTodos.LoginRaces
import SharedTodos.RegisterRaces
import SharedTodos.LoginLimits
import SharedTodos.LimiterRaces
import SharedTodos.CookieJar
import SharedTodos.Enumeration
import SharedTodos.ResetHistory
import SharedTodos.Mailboxes
import SharedTodos.ItemRaces
import SharedTodos.RevocationRaces
import SharedTodos.WriteRaces
import SharedTodos.TokenChecks
import SharedTodos.ColumnFits
import SharedTodos.ProxyBuckets
import SharedTodos.Faults
import SharedTodos.RoleInvariant
import SharedTodos.Library.OrderBy
import SharedTodos.Rights
import SharedTodos.BoardRuns
import SharedTodos.Dashboard
import SharedTodos.ItemListing
import SharedTodos.MigratedRuns
