import MicrossApi.CommissionSettlement
import MicrossApi.ReserveRace
import MicrossApi.CreditCeiling
import MicrossApi.SubscriptionRefund
import MicrossApi.ResetLoop
import MicrossApi.SubscriptionGroups
import MicrossApi.SubscriptionDiscounts
import MicrossApi.DiscountFastPath
import MicrossApi.BatchUpdate
import MicrossApi.ProfileUpdates
import MicrossApi.GroupCache
import MicrossApi.LoginLimit
import MicrossApi.TwoFactor
import MicrossApi.TaskBilling
import MicrossApi.PurchaseLimit
import MicrossApi.BindingLimit
import MicrossApi.CustomerCodes
import MicrossApi.UserDisable
import MicrossApi.RefreshChain
import MicrossApi.ResponsesTerminal
import MicrossApi.ChatRoundTrip
import MicrossApi.RedemptionEdits
import MicrossApi.TokenStatus
import MicrossApi.PreConsumption
import MicrossApi.GeminiChat
import MicrossApi.ChannelStatus
import MicrossApi.ChannelKeys
import MicrossApi.TaskPrice
import MicrossApi.UsageTotals
import MicrossApi.TokenBucket
